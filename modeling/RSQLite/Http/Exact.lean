import RSQLite.Http.Mirror

/-!
A read that ends within the file, from a server that delivers its pages: page after page is
copied, so that the buffer holds the bytes of the file.
-/
namespace RSQLite

open Buffers

variable {server : Server} {env : Environment} {F : Bytes}

/-- The buffer of a read from `start` on, when it has come to `pos`. -/
def filled (F : Bytes) (start : Nat) (zBuf : Bytes) (pos : Nat) : Bytes :=
  (F.drop start).take (pos - start) ++ zBuf.drop (pos - start)

theorem copyTo_filled (F : Bytes) (start : Nat) (zBuf : Bytes) (pos n : Nat) (later : start ≤ pos)
    (inside : pos + n ≤ F.length) :
    copyTo (filled F start zBuf pos) (pos - start) ((F.drop pos).take n) =
      filled F start zBuf (pos + n) := by
  have front : ((F.drop start).take (pos - start)).length = pos - start := by
    rw [List.length_take, List.length_drop]
    omega
  have bytes : ((F.drop pos).take n).length = n := by
    rw [List.length_take, List.length_drop]
    omega
  have first : (filled F start zBuf pos).take (pos - start) = (F.drop start).take (pos - start) :=
    List.take_left' front
  have last : (filled F start zBuf pos).drop (pos - start + n) = zBuf.drop (pos - start + n) := by
    rw [filled, ← List.drop_drop, List.drop_left' front, List.drop_drop]
  rw [copyTo, bytes, first, last, filled, show pos + n - start = pos - start + n by omega,
    List.take_add, List.drop_drop, Nat.add_sub_cancel' later]

theorem unfinished_within (ps fin last pn pos : Nat) (positive : 0 < ps)
    (lastPage : (fin - 1) / ps = last) (begun : (pn - 1) * ps ≤ pos) (unfinished : pos < fin) :
    pn ≠ last + 2 := by
  rintro rfl
  have below : fin - 1 < (fin - 1) / ps * ps + ps := Nat.lt_div_mul_add positive
  rw [lastPage, ← Nat.succ_mul] at below
  rw [show last + 2 - 1 = last.succ from rfl] at begun
  omega

theorem copiedPart_eq (ps fin pn pos : Nat) (begun : (pn - 1) * ps ≤ pos) :
    copiedPart ps fin pn pos = (pos - (pn - 1) * ps, min ((pn - 1) * ps + ps) fin - pos) := by
  rw [copiedPart]
  split
  · next inside =>
      refine Prod.ext rfl ?_
      simp only
      split <;> omega
  · next at_ =>
      refine Prod.ext ?_ ?_
      · simp only
        omega
      · simp only
        split <;> omega

theorem pageOf_cast (F : Bytes) (pn : Nat) (positive : 0 < pn) :
    pageOf F pn = (F.drop ((pn - 1) * filePageSize F)).take (filePageSize F) := by
  have offset : (((pn : Int) - 1) * filePageSize F).toNat = (pn - 1) * filePageSize F := by
    rw [show (pn : Int) - 1 = ((pn - 1 : Nat) : Int) by omega, ← Int.natCast_mul, Int.toNat_natCast]
  rw [pageOf, offset]

theorem inFile_cast (F : Bytes) (pn : Nat) (positive : 0 < pn) :
    InFile F pn ↔ (pn - 1) * filePageSize F < F.length := by
  rw [InFile, show (pn : Int) - 1 = ((pn - 1 : Nat) : Int) by omega, ← Int.natCast_mul]
  omega

theorem page_request (F : Bytes) (pageNo : Int) (positive : 0 < pageNo) :
    ∃ k : Nat, pageNo = k + 1 ∧ (pageNo - 1) * filePageSize F = (k * filePageSize F : Nat) ∧
      (pageNo - 1) * filePageSize F + filePageSize F - 1 =
        (k * filePageSize F + filePageSize F - 1 : Nat) ∧
      pageOf F pageNo = (F.drop (k * filePageSize F)).take (filePageSize F) := by
  have positivePs : 0 < filePageSize F := headerPageSize_pos (F.take 32)
  obtain ⟨k, rfl⟩ : ∃ k : Nat, pageNo = k + 1 := ⟨(pageNo - 1).toNat, by omega⟩
  have first : ((k + 1 : Int) - 1) * filePageSize F = (k * filePageSize F : Nat) := by
    rw [Int.add_sub_cancel, Int.natCast_mul]
  exact ⟨k, rfl, first, by rw [first]; omega, pageOf_cast F (k + 1) (Nat.succ_pos k)⟩

/-- A part of a page is read from its buffer exactly if the file goes as far. -/
theorem load_page (F : Bytes) (s : HttpState) (p : Option Nat) (pn pos n : Nat) (positive : 0 < pn)
    (held : contents s.heap p = some (pageOf F pn)) (begun : (pn - 1) * filePageSize F ≤ pos)
    (within : pos + n ≤ (pn - 1) * filePageSize F + filePageSize F) (some_ : 0 < n) :
    s.load (.buffer p) (pos - (pn - 1) * filePageSize F) n =
      if pos + n ≤ F.length then .ok ((F.drop pos).take n) else .error .outOfBounds := by
  have size : (pageOf F pn).length =
      min (filePageSize F) (F.length - (pn - 1) * filePageSize F) := by
    rw [pageOf_cast F pn positive, List.length_take, List.length_drop]
  rw [HttpState.load, Buffers.read, held]
  simp only
  by_cases inside : pos + n ≤ F.length
  · rw [if_pos (by rw [size]; omega), if_pos inside, pageOf_cast F pn positive, List.drop_take,
      List.drop_drop, List.take_take, Nat.add_sub_cancel' begun, Nat.min_eq_left (by omega)]
  · rw [if_neg (by rw [size]; omega), if_neg inside]

theorem load_gone (s : HttpState) (p : Option Nat) (off n : Nat) (gone : Gone s.heap p)
    (some_ : 0 < n) : s.load (.buffer p) off n = .error .outOfBounds := by
  rw [HttpState.load]
  cases p with
  | none =>
      have outside : ¬ off + n ≤ ([] : Bytes).length := by
        rw [List.length_nil]
        omega
      simp only [Buffers.read, contents, if_neg outside]
  | some p => rw [read_gone s.heap p off n gone]

/-- No page of the read is pushed out of the cache before it is copied. -/
def KeepsPages (server : Server) (F : Bytes) (first : Nat) (s : HttpState) : Prop :=
  ∀ s', Mirrors F s' → SameSettings s.file s'.file → ∀ pn : Nat, first ≤ pn → InFile F pn →
    s'.file.index? pn = none → prefetchCount server pn s' < s'.file.cacheCapacity

theorem KeepsPages.kept {first : Nat} {s : HttpState} (keeps : KeepsPages server F first s)
    (mirrors : Mirrors F s) (pn : Nat) (reached : first ≤ pn) (inFile : InFile F pn) :
    (s.file.index? pn).isSome ∨ prefetchCount server pn s < s.file.cacheCapacity := by
  cases found : s.file.index? pn with
  | some i => exact .inl rfl
  | none => exact .inr (keeps s mirrors (.refl s.file) pn reached inFile found)

theorem KeepsPages.settled {first : Nat} {s s' : HttpState} (keeps : KeepsPages server F first s)
    (settings : SameSettings s.file s'.file) : KeepsPages server F first s' :=
  fun s'' mirrors settings' => keeps s'' mirrors (settings.trans settings')

theorem readLoop_exact (env : Environment) (delivers : Delivers server F)
    (first start fin last : Nat)
    (inside : fin ≤ F.length) (lastPage : (fin - 1) / filePageSize F = last) (zBuf : Bytes)
    (more : Nat) :
    ∀ pn pos s, Mirrors F s → KeepsPages server F first s → first ≤ pn → 0 < pn →
      (pn - 1) * filePageSize F ≤ pos → pos < (pn - 1) * filePageSize F + filePageSize F →
      start ≤ pos → pos < fin → pn + more = last + 2 →
      ∃ s', readLoop server env (filePageSize F) start fin more pn pos (filled F start zBuf pos) s =
          .ok (.ok, filled F start zBuf fin, s') ∧ Mirrors F s' ∧ SameSettings s.file s'.file := by
  have positivePs : 0 < filePageSize F := headerPageSize_pos (F.take 32)
  induction more with
  | zero =>
      intro pn pos s _ _ _ positive begun within _ unfinished rounds
      exact absurd rounds (unfinished_within _ fin last pn pos positivePs lastPage begun unfinished)
  | succ more ih =>
      intro pn pos s mirrors keeps reached positive begun within later unfinished rounds
      have inFile : InFile F pn := (inFile_cast F pn positive).mpr (by omega)
      obtain ⟨p, s₁, requested, returned⟩ := page_returned env delivers mirrors pn inFile
      have held := returned.held (keeps.kept mirrors pn reached inFile)
      have part := copiedPart_eq (filePageSize F) fin pn pos begun
      have load := load_page F s₁ p pn pos
        (min ((pn - 1) * filePageSize F + filePageSize F) fin - pos) positive held begun (by omega)
        (by omega)
      rw [if_pos (by omega)] at load
      have copied := copyTo_filled F start zBuf pos
        (min ((pn - 1) * filePageSize F + filePageSize F) fin - pos) later (by omega)
      rw [readLoop, requested]
      simp only [bind, Except.bind, part]
      rw [if_pos (by omega), load]
      simp only
      rw [copied]
      have next : (pn + 1 - 1) * filePageSize F = (pn - 1) * filePageSize F + filePageSize F := by
        rw [Nat.add_sub_cancel, ← Nat.succ_mul, show (pn - 1).succ = pn by omega]
      by_cases onward : (pn - 1) * filePageSize F + filePageSize F < fin
      · rw [show pos + (min ((pn - 1) * filePageSize F + filePageSize F) fin - pos) =
          (pn - 1) * filePageSize F + filePageSize F by omega]
        obtain ⟨s', run, mirrors', settings⟩ := ih (pn + 1)
          ((pn - 1) * filePageSize F + filePageSize F) s₁ returned.mirrors
          (keeps.settled returned.settings) (by omega) (Nat.succ_pos pn) (by omega) (by omega)
          (by omega) onward (by omega)
        exact ⟨s', run, mirrors', returned.settings.trans settings⟩
      · have lastPage' : (fin - 1) / filePageSize F = pn - 1 := by
          refine Nat.div_eq_of_lt_le ?_ ?_
          · omega
          · rw [show (pn - 1 + 1) = (pn - 1).succ from rfl, Nat.succ_mul]
            omega
        rw [show pos + (min ((pn - 1) * filePageSize F + filePageSize F) fin - pos) = fin by omega]
        obtain rfl : more = 0 := by omega
        exact ⟨s₁, rfl, returned.mirrors, returned.settings⟩

/-- A read that ends within the file. -/
structure Within (F : Bytes) (iAmt iOfst : Nat) (zBuf : Bytes) : Prop where
  some : 0 < iAmt
  inside : iOfst + iAmt ≤ F.length
  size : zBuf.length = iAmt

theorem httpRead_mirrored (env : Environment) (delivers : Delivers server F) {s : HttpState}
    (mirrors : Mirrors F s)
    (iAmt iOfst : Nat) (zBuf : Bytes) (within : Within F iAmt iOfst zBuf)
    (keeps : KeepsPages server F (iOfst / filePageSize F + 1) s) :
    ∃ s', httpRead server env iAmt iOfst zBuf s = .ok (.ok, (F.drop iOfst).take iAmt, s') ∧
      Mirrors F s' ∧ SameSettings s.file s'.file := by
  have positivePs : 0 < filePageSize F := headerPageSize_pos (F.take 32)
  have some_ := within.some
  have inside := within.inside
  have begun : iOfst / filePageSize F * filePageSize F ≤ iOfst := Nat.div_mul_le_self _ _
  have below : iOfst < iOfst / filePageSize F * filePageSize F + filePageSize F :=
    Nat.lt_div_mul_add positivePs
  have ordered : iOfst / filePageSize F ≤ (iOfst + iAmt - 1) / filePageSize F :=
    Nat.div_le_div_right (by omega)
  obtain ⟨s', run, mirrors', settings⟩ := readLoop_exact env delivers
    (iOfst / filePageSize F + 1) iOfst (iOfst + iAmt) ((iOfst + iAmt - 1) / filePageSize F) inside
    rfl
    zBuf ((iOfst + iAmt - 1) / filePageSize F + 1 + 1 - (iOfst / filePageSize F + 1))
    (iOfst / filePageSize F + 1) iOfst s mirrors keeps (Nat.le_refl _) (Nat.succ_pos _) begun below
    (Nat.le_refl _) (by omega) (by omega)
  have start : filled F iOfst zBuf iOfst = zBuf := by
    rw [filled, Nat.sub_self, List.take_zero, List.drop_zero, List.nil_append]
  have finish : filled F iOfst zBuf (iOfst + iAmt) = (F.drop iOfst).take iAmt := by
    rw [filled, Nat.add_sub_cancel_left, List.drop_of_length_le (Nat.le_of_eq within.size),
      List.append_nil]
  rw [start, finish] at run
  refine ⟨s', ?_, mirrors', settings⟩
  rw [httpRead, mirrors.mode.undownloaded, probe_mirrored mirrors]
  simp only [mirrors.pageSize]
  rw [run]
  simp only [bind, Except.bind, fillTail, mirrors'.length]
  rw [if_neg (by omega)]

theorem httpRead_probe {s s' : HttpState} (undownloaded : s.file.data = none)
    (probe : httpProbeMeta server env s = (.ok, s')) (mirrors : Mirrors F s') (iAmt iOfst : Nat)
    (zBuf : Bytes) :
    httpRead server env iAmt iOfst zBuf s = httpRead server env iAmt iOfst zBuf s' := by
  rw [httpRead, httpRead, undownloaded, probe, mirrors.mode.undownloaded, probe_mirrored mirrors]

theorem keepsPages_of_fewer (first : Nat) (s : HttpState)
    (fewer : s.file.prefetchPages < s.file.cacheCapacity) (room : 2 ≤ s.file.cacheCapacity) :
    KeepsPages server F first s := by
  intro s' _ settings pn _ _ _
  have count := prefetchCount_le server pn s'
  rw [settings.prefetchPages] at count
  rw [settings.cacheCapacity]
  omega

/-- A server with a file: it answers HEAD with its length, and the request for bytes of the file
with 206 and exactly these bytes. -/
structure ServesRanges (server : Server) (F : Bytes) : Prop where
  head : ∀ n, ∃ code, code < 400 ∧ server.head n = .answered code F.length
  range : ∀ n (first last : Nat), first ≤ last → last < F.length → ∃ total,
    server.range n first last = .answered 206 ((F.drop first).take (last - first + 1)) total

/-- A file that has been probed, with an empty cache of some capacity. -/
def probedFile (env : Environment) (F : Bytes) (cap : Nat) (heap : Heap UInt8) (requests : Nat) :
    HttpState where
  file :=
    { data := none, haveMeta := true, contentLength := F.length, pageSize := filePageSize F
      cacheCapacity := cap, cacheCount := 0, cachePageNo := List.replicate cap (-1)
      cacheData := List.replicate cap none
      fallbackFull := httpEnvBool env.fallbackFulldl true, prefetchPages := env.prefetch }
  heap := heap
  requests := requests

/-- A file that has been opened, and the capacity of its cache. -/
inductive HttpOpened (env : Environment) (F : Bytes) : Nat → HttpState → Prop
  | unprobed : HttpOpened env F (env.capacity (filePageSize F)) (unusedFile env)
  | probed (cap : Nat) (room : 2 ≤ cap) (heap : Heap UInt8) (requests : Nat) :
      HttpOpened env F cap (probedFile env F cap heap requests)

/-- A call of `httpRead()`. -/
structure ReadCall where
  iAmt : Nat
  iOfst : Nat
  zBuf : Bytes

/-- The results of calls one after the other, and the state after them. -/
def httpReads (server : Server) (env : Environment) : List ReadCall → HttpState →
    Outcome (List (Rc × Bytes) × HttpState)
  | [], s => .ok ([], s)
  | call :: calls, s => do
      let (rc, out, s) ← httpRead server env call.iAmt call.iOfst call.zBuf s
      let (results, s) ← httpReads server env calls s
      .ok ((rc, out) :: results, s)

/-- The cache has at most `cacheCapacity` entries with pairwise distinct pages, and each holds
exactly the bytes of its page. -/
structure CacheExact (F : Bytes) (s : HttpState) : Prop where
  count : s.file.cacheCount ≤ s.file.cacheCapacity
  distinct : (s.file.cachePageNo.take s.file.cacheCount).Nodup
  held : ∀ i, i < s.file.cacheCount → ∃ pageNo p, s.file.cachePageNo[i]? = some pageNo ∧
    s.file.cacheData[i]? = some p ∧ contents s.heap p = some (pageOf F pageNo)

theorem Mirrors.cacheExact {s : HttpState} (mirrors : Mirrors F s) : CacheExact F s := by
  have arrays := mirrors.cached.arrays
  refine ⟨arrays.count, ?_, ?_⟩
  · rw [← entries_pages arrays]
    exact mirrors.cached.holds.keys
  · intro i inside
    have count := arrays.count
    have pageNos : i < s.file.cachePageNo.length := by rw [arrays.pageNos]; omega
    have data : i < s.file.cacheData.length := by rw [arrays.data]; omega
    have member : (s.file.cachePageNo[i], s.file.cacheData[i]) ∈ s.file.entries := by
      rw [HttpFile.entries, HttpFile.cells]
      refine List.mem_take_iff_getElem.mpr ⟨i, ?_, ?_⟩
      · rw [List.length_zip]
        omega
      · rw [List.getElem_zip]
    obtain ⟨buf, held, isPage⟩ := mirrors.cached.holds.held _ member
    rw [isPage.2] at held
    exact ⟨_, _, List.getElem?_eq_getElem pageNos, List.getElem?_eq_getElem data, held⟩

theorem perform_short (code : Nat) (body : Bytes) (total : Int) (short : body.length ≤ 65536) :
    perform (.answered code body total) = .answered code body total :=
  if_pos (Nat.lt_of_le_of_lt short (by decide))

theorem perform_part (F : Bytes) (first n : Nat) (total : Int) (short : n ≤ 65536) :
    perform (.answered 206 ((F.drop first).take n) total) =
      .answered 206 ((F.drop first).take n) total := by
  refine perform_short _ _ _ ?_
  rw [List.length_take]
  exact Nat.le_trans (Nat.min_le_left _ _) short

/-- Where the length is a multiple of the page size, a page that begins in the file ends in
it. -/
theorem page_inside (pages k : Nat) (multiple : F.length = pages * filePageSize F)
    (begins : k * filePageSize F < F.length) :
    k * filePageSize F + filePageSize F ≤ F.length := by
  have fewer : k < pages := by
    refine @Nat.lt_of_mul_lt_mul_right (filePageSize F) k pages ?_
    rw [← multiple]
    exact begins
  rw [multiple, ← Nat.succ_mul]
  exact Nat.mul_le_mul_right _ fewer

/-- Where the length is a multiple of the page size, every page can be requested. -/
theorem serves_delivers (serves : ServesRanges server F) (pages : Nat) (some_ : 0 < pages)
    (multiple : F.length = pages * filePageSize F) (header : 32 ≤ filePageSize F) :
    Delivers server F where
  nonempty := by
    rw [multiple]
    exact Nat.mul_pos some_ (by omega)
  length n := by
    obtain ⟨code, accepted, head⟩ := serves.head n
    have nonempty : 0 < F.length := by
      rw [multiple]
      exact Nat.mul_pos some_ (by omega)
    rw [head, headLength, if_pos ⟨accepted, by omega⟩]
  header n := by
    have long : 32 ≤ F.length := by
      rw [multiple]
      exact Nat.le_trans header (Nat.le_mul_of_pos_left _ some_)
    obtain ⟨total, answer⟩ := serves.range n 0 31 (by decide) (by omega)
    refine ⟨206, total, by decide, ?_⟩
    change perform (server.range n ((0 : Nat) : Int) ((31 : Nat) : Int)) = _
    rw [answer]
    exact perform_part F 0 32 total (by decide)
  page n pageNo inFile := by
    obtain ⟨k, _, first, last, page⟩ := page_request F pageNo inFile.1
    have begins := inFile.2
    rw [first] at begins
    have inside := page_inside pages k multiple (by omega)
    obtain ⟨total, answer⟩ := serves.range n (k * filePageSize F)
      (k * filePageSize F + filePageSize F - 1) (by omega) (by omega)
    refine ⟨total, ?_⟩
    rw [last, first, answer, page,
      show k * filePageSize F + filePageSize F - 1 - k * filePageSize F + 1 = filePageSize F by
        omega]
    exact perform_part F _ _ total (headerPageSize_le _)

theorem headerPageSize_ge (header : Bytes) : 512 ≤ headerPageSize header :=
  (headerPageSize_valid header).1

theorem httpReads_mirrored (env : Environment) (delivers : Delivers server F)
    (calls : List ReadCall) :
    ∀ s, Mirrors F s → s.file.prefetchPages < s.file.cacheCapacity →
      (∀ call ∈ calls, Within F call.iAmt call.iOfst call.zBuf) →
      ∃ s', httpReads server env calls s =
          .ok (calls.map (fun call => (.ok, (F.drop call.iOfst).take call.iAmt)), s') ∧
        Mirrors F s' := by
  induction calls with
  | nil => exact fun s mirrors _ _ => ⟨s, rfl, mirrors⟩
  | cons call calls ih =>
      intro s mirrors fewer within
      have room := mirrors.cached.arrays.room mirrors.mode.probed
      obtain ⟨s₁, read, mirrors₁, settings⟩ := httpRead_mirrored env delivers mirrors
        call.iAmt call.iOfst call.zBuf (within call List.mem_cons_self)
        (keepsPages_of_fewer _ s fewer room)
      obtain ⟨s₂, reads, mirrors₂⟩ := ih s₁ mirrors₁
        (by rw [settings.prefetchPages, settings.cacheCapacity]; exact fewer)
        (fun call' member => within call' (List.mem_cons_of_mem _ member))
      refine ⟨s₂, ?_, mirrors₂⟩
      rw [httpReads, read]
      simp only [bind, Except.bind]
      rw [reads]
      rfl

/-- Every read within the file returns exactly its bytes, whatever has been read before, and
the cache holds exact pages in between. -/
theorem httpReads_exact (server : Server) (env : Environment) (F : Bytes)
    (serves : ServesRanges server F) (pages : Nat) (some_ : 0 < pages)
    (multiple : F.length = pages * filePageSize F) (cap : Nat) (start : HttpState)
    (opened : HttpOpened env F cap start) (fewer : env.prefetch < cap) (calls : List ReadCall)
    (within : ∀ call ∈ calls, Within F call.iAmt call.iOfst call.zBuf) :
    ∃ s', httpReads server env calls start =
        .ok (calls.map (fun call => (.ok, (F.drop call.iOfst).take call.iAmt)), s') ∧
      CacheExact F s' := by
  have delivers := serves_delivers serves pages some_ multiple
    (Nat.le_trans (by decide) (headerPageSize_ge (F.take 32)))
  cases opened with
  | probed _ room heap requests =>
      have mirrors : Mirrors F (probedFile env F cap heap requests) := ⟨⟨rfl, rfl⟩, rfl, rfl,
        ⟨⟨List.length_replicate, List.length_replicate, Nat.zero_le _, fun _ => room⟩, holds_nil⟩⟩
      obtain ⟨s', run, mirrors'⟩ := httpReads_mirrored env delivers calls _ mirrors fewer
        within
      exact ⟨s', run, mirrors'.cacheExact⟩
  | unprobed =>
      obtain ⟨s₁, probe, mirrors, prefetch, capacity, _⟩ := probe_mirrors env delivers
        (s := unusedFile env) ⟨rfl, rfl⟩
      cases calls with
      | nil =>
          exact ⟨_, rfl, Nat.le_refl 0, List.nodup_nil,
            fun i inside => absurd inside (Nat.not_lt_zero i)⟩
      | cons call calls =>
          obtain ⟨s', run, mirrors'⟩ := httpReads_mirrored env delivers (call :: calls) s₁
            mirrors (by rw [prefetch, capacity]; exact fewer) within
          refine ⟨s', ?_, mirrors'.cacheExact⟩
          rw [httpReads, httpRead_probe rfl probe mirrors]
          exact run

/-- A server that answers every request for a range of the file. -/
def rangeServer (F : Bytes) : Server where
  head _ := .answered 200 F.length
  range _ first last :=
    .answered 206 ((F.drop first.toNat).take (last - first + 1).toNat) F.length
  download _ := .answered 200 F (-1)

theorem rangeServer_serves (F : Bytes) : ServesRanges (rangeServer F) F where
  head _ := ⟨200, by decide, rfl⟩
  range n first last ordered inside := by
    refine ⟨F.length, ?_⟩
    rw [rangeServer]
    simp only
    rw [Int.toNat_natCast, show ((last : Int) - first + 1).toNat = last - first + 1 by omega]

def smallFile : Bytes := List.replicate 16 0 ++ [2, 0] ++ List.replicate 494 7

/-- A page of sevens and one of nines. -/
def twoPages : Bytes := smallFile ++ List.replicate 512 9

/-- Two reads of a file that is prefetched page by page, the second of them across its pages. -/
theorem httpReads_exact_small :
    ∃ s', httpReads (rangeServer twoPages) ⟨none, some 1, some 1⟩
        [⟨3, 15, [0, 0, 0]⟩, ⟨4, 510, [0, 0, 0, 0]⟩] (unusedFile ⟨none, some 1, some 1⟩) =
          .ok ([(.ok, [0, 2, 0]), (.ok, [7, 7, 9, 9])], s') ∧
      CacheExact twoPages s' := by
  have size : twoPages.length = 1024 := by decide +kernel
  have pageSize : filePageSize twoPages = 512 := by decide +kernel
  have few : Environment.prefetch ⟨none, some 1, some 1⟩ <
      Environment.capacity ⟨none, some 1, some 1⟩ (filePageSize twoPages) := by
    rw [pageSize]
    decide
  have reads := httpReads_exact (rangeServer twoPages) ⟨none, some 1, some 1⟩ twoPages
    (rangeServer_serves twoPages) 2 (by decide) (by rw [size, pageSize]) _ _ .unprobed few
    [⟨3, 15, [0, 0, 0]⟩, ⟨4, 510, [0, 0, 0, 0]⟩]
  have first : (twoPages.drop 15).take 3 = [0, 2, 0] := by decide +kernel
  have across : (twoPages.drop 510).take 4 = [7, 7, 9, 9] := by decide +kernel
  simp only [List.map_cons, List.map_nil, first, across] at reads
  refine reads (fun call member => ?_)
  rcases List.mem_cons.mp member with rfl | member
  · exact ⟨by decide, by rw [size]; decide, rfl⟩
  · rw [List.mem_singleton.mp member]
    exact ⟨by decide, by rw [size]; decide, rfl⟩

end RSQLite
