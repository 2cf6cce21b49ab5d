import RSQLite.Http.Exact

/-!
Range mode against a downloaded file. A read that goes beyond the end of the file is a short
read of a downloaded file; in range mode the page with the end is copied further than it was
received, and a page behind the end is an error.
-/
namespace RSQLite

open Buffers

variable {server : Server} {env : Environment} {F : Bytes}

/-- The bytes of the file, zeros past its end, and a short read exactly if there are any. -/
def expectedRead (F : Bytes) (iAmt iOfst : Nat) : Rc × Bytes :=
  (if iOfst + iAmt ≤ F.length then .ok else .shortRead,
    (F.drop iOfst).take iAmt ++ List.replicate (iAmt - (F.length - iOfst)) 0)

theorem readData_expected (F : Bytes) (iAmt iOfst : Nat) :
    readData F iAmt iOfst = expectedRead F iAmt iOfst := by
  rw [readData, expectedRead]
  split
  · rw [show iAmt - (F.length - iOfst) = 0 by omega, List.replicate_zero, List.append_nil]
  · split
    · rw [List.take_of_length_le (by rw [List.length_drop]; omega)]
    · rw [List.drop_of_length_le (by omega), show F.length - iOfst = 0 by omega, List.take_nil,
        List.nil_append, Nat.sub_zero]

def HttpState.downloaded (F : Bytes) (s : HttpState) : HttpState := { s with file.data := some F }

/-- In every state in which the file can be, the read returns what it returns of the
downloaded file, and no page is copied further than it was received. -/
def Agrees (server : Server) (env : Environment) (F : Bytes) (iAmt iOfst : Nat) : Prop :=
  ∀ s zBuf, HttpReachable server env s → zBuf.length = iAmt → ∃ s' s'',
    httpRead server env iAmt iOfst zBuf s =
        .ok ((expectedRead F iAmt iOfst).1, (expectedRead F iAmt iOfst).2, s') ∧
      httpRead server env iAmt iOfst zBuf (s.downloaded F) =
        .ok ((expectedRead F iAmt iOfst).1, (expectedRead F iAmt iOfst).2, s'')

theorem httpRead_downloaded (iAmt iOfst : Nat) (zBuf : Bytes) (s : HttpState) :
    httpRead server env iAmt iOfst zBuf (s.downloaded F) =
      .ok ((expectedRead F iAmt iOfst).1, (expectedRead F iAmt iOfst).2, s.downloaded F) := by
  rw [← readData_expected]
  rfl

/-- The available bytes of a range that begins in the file, and 416 for one that does not. -/
structure FollowsRfc7233 (server : Server) (F : Bytes) : Prop where
  head : ∀ n, ∃ code, code < 400 ∧ server.head n = .answered code F.length
  satisfiable : ∀ n (first last : Nat), first ≤ last → first < F.length → ∃ total,
    server.range n first last = .answered 206 ((F.drop first).take (last - first + 1)) total
  unsatisfiable : ∀ n (first last : Nat), first ≤ last → F.length ≤ first → ∃ body total,
    server.range n first last = .answered 416 body total

theorem rfc7233_page (follows : FollowsRfc7233 server F) (n : Nat) (pageNo : Int)
    (inFile : InFile F pageNo) : ∃ total,
      perform (server.range n ((pageNo - 1) * filePageSize F)
        ((pageNo - 1) * filePageSize F + filePageSize F - 1)) =
          .answered 206 (pageOf F pageNo) total := by
  have positivePs : 0 < filePageSize F := headerPageSize_pos (F.take 32)
  obtain ⟨k, _, first, last, page⟩ := page_request F pageNo inFile.1
  have begins := inFile.2
  rw [first] at begins
  obtain ⟨total, answer⟩ := follows.satisfiable n (k * filePageSize F)
    (k * filePageSize F + filePageSize F - 1) (by omega) (by omega)
  refine ⟨total, ?_⟩
  rw [last, first, answer, page,
    show k * filePageSize F + filePageSize F - 1 - k * filePageSize F + 1 = filePageSize F by omega]
  exact perform_part F _ _ total (headerPageSize_le _)

theorem rfc7233_delivers (follows : FollowsRfc7233 server F) (nonempty : 0 < F.length) :
    Delivers server F where
  nonempty := nonempty
  length n := by
    obtain ⟨code, accepted, head⟩ := follows.head n
    rw [head, headLength, if_pos ⟨accepted, by omega⟩]
  header n := by
    obtain ⟨total, answer⟩ := follows.satisfiable n 0 31 (by decide) nonempty
    refine ⟨206, total, by decide, ?_⟩
    change perform (server.range n ((0 : Nat) : Int) ((31 : Nat) : Int)) = _
    rw [answer]
    exact perform_part F 0 32 total (by decide)
  page := rfc7233_page follows

/-- A page behind the end of the file is an error. -/
theorem page_refused (follows : FollowsRfc7233 server F) {s : HttpState} (mirrors : Mirrors F s)
    (pageNo : Int) (positive : 0 < pageNo) (outside : ¬ InFile F pageNo) :
    httpGetPage server env pageNo s = .ok (.ioerr, none, s.answeredOnce) := by
  have positivePs : 0 < filePageSize F := headerPageSize_pos (F.take 32)
  have absent : s.file.index? pageNo = none := by
    rw [index?_none mirrors.cached.arrays]
    intro member
    obtain ⟨e, member, page⟩ := List.mem_map.mp member
    obtain ⟨buf, _, isPage⟩ := mirrors.cached.holds.held e member
    exact outside (page ▸ isPage.1)
  obtain ⟨k, _, first, last, _⟩ := page_request F pageNo positive
  have behind : F.length ≤ k * filePageSize F := by
    rw [InFile, first] at outside
    omega
  obtain ⟨body, total, answer⟩ := follows.unsatisfiable s.requests (k * filePageSize F)
    (k * filePageSize F + filePageSize F - 1) (by omega) behind
  have fetched : httpFetchRange server ((pageNo - 1) * s.file.pageSize) s.file.pageSize s =
      (.ioerr, none, s.answeredOnce) := by
    rw [httpFetchRange, mirrors.pageSize, last, first, answer, perform]
    by_cases short : body.length < 0x7fffff00
    · rw [if_pos short]
      rfl
    · rw [if_neg short]
  rw [getPage_rangeMode server env mirrors.mode _ positive, absent]
  simp only [missPage, fetched]

theorem getPage_mirrors (follows : FollowsRfc7233 server F) (delivers : Delivers server F)
    {s : HttpState} (mirrors : Mirrors F s) (pageNo : Int) (rc : Rc) (p : Option PagePointer)
    (s' : HttpState) (requested : httpGetPage server env pageNo s = .ok (rc, p, s')) :
    Mirrors F s' := by
  by_cases positive : 0 < pageNo
  · by_cases inFile : InFile F pageNo
    · obtain ⟨_, s₁, run, returned⟩ := page_returned env delivers mirrors pageNo inFile
      cases requested.symm.trans run
      exact returned.mirrors
    · cases requested.symm.trans (page_refused follows mirrors pageNo positive inFile)
      exact ⟨⟨mirrors.mode.probed, mirrors.mode.undownloaded⟩, mirrors.length, mirrors.pageSize,
        mirrors.cached.arrays, mirrors.cached.holds⟩
  · rw [httpGetPage, if_pos (Int.not_lt.mp positive)] at requested
    cases requested
    exact mirrors

theorem reachable_mirrors (follows : FollowsRfc7233 server F) (delivers : Delivers server F)
    (s : HttpState) (reachable : HttpReachable server env s) : Unprobed s ∨ Mirrors F s := by
  refine httpReachable_keeps (fun s => Unprobed s ∨ Mirrors F s) ?_ ?_ ?_ s reachable
  · exact fun zName f opens => .inl (unprobed_open zName f opens)
  · rintro s (fresh | mirrors)
    · obtain ⟨s', probe, mirrors, _⟩ := probe_mirrors env delivers fresh
      rw [probe]
      exact .inr mirrors
    · rw [probe_mirrored mirrors]
      exact .inr mirrors
  · rintro pageNo s rc p s' (fresh | mirrors) requested
    · obtain ⟨s₁, probe, mirrors, _⟩ := probe_mirrors env delivers fresh
      rw [getPage_probe server env pageNo fresh.undownloaded probe mirrors.mode] at requested
      split at requested
      · cases requested
        exact .inl fresh
      · exact .inr (getPage_mirrors follows delivers mirrors pageNo rc p s' requested)
    · exact .inr (getPage_mirrors follows delivers mirrors pageNo rc p s' requested)

/-- A read in a state that can be reached is a read of a file that has been probed. -/
theorem reachable_probed (follows : FollowsRfc7233 server F) (delivers : Delivers server F)
    (s : HttpState) (reachable : HttpReachable server env s) :
    ∃ s₁, Mirrors F s₁ ∧ Ready env s₁ ∧ ∀ iAmt iOfst zBuf,
      httpRead server env iAmt iOfst zBuf s = httpRead server env iAmt iOfst zBuf s₁ := by
  have ready := reachable_ready s reachable
  rcases reachable_mirrors follows delivers s reachable with fresh | mirrors
  · obtain ⟨s₁, probe, mirrors, _⟩ := probe_mirrors env delivers fresh
    have ready₁ := ready_probe server ready
    rw [probe] at ready₁
    exact ⟨s₁, mirrors, ready₁, httpRead_probe fresh.undownloaded probe mirrors⟩
  · exact ⟨s, mirrors, ready, fun _ _ _ => rfl⟩

/-- The number of pages of the file after the one in which a read begins. -/
def pagesAfter (F : Bytes) (iOfst : Nat) : Nat :=
  (F.length - 1) / filePageSize F - iOfst / filePageSize F

theorem inFile_iff_le (delivers : Delivers server F) (pn : Nat) (positive : 0 < pn) :
    InFile F pn ↔ pn ≤ (F.length - 1) / filePageSize F + 1 := by
  have positivePs : 0 < filePageSize F := headerPageSize_pos (F.take 32)
  have nonempty := delivers.nonempty
  rw [inFile_cast F pn positive]
  have divided : pn - 1 ≤ (F.length - 1) / filePageSize F ↔
      (pn - 1) * filePageSize F ≤ F.length - 1 := Nat.le_div_iff_mul_le positivePs
  omega

/-- Only pages of the file are prefetched. -/
theorem prefetchedPages_le (delivers : Delivers server F) (fallbackFull : Bool) (cap pageNo : Nat)
    (positive : 0 < pageNo) (more : Nat) :
    ∀ k cached (t : Transfers), t.contentLength = F.length → 0 < k →
      (prefetchedPages server fallbackFull (filePageSize F) cap pageNo more k cached t).length ≤
        (F.length - 1) / filePageSize F + 2 - (pageNo + k) := by
  have nonempty := delivers.nonempty
  induction more with
  | zero => exact fun _ _ _ _ _ => Nat.zero_le _
  | succ more ih =>
      intro k cached t length later
      rw [prefetchedPages, length]
      split
      · exact Nat.zero_le _
      next within =>
      have inFile : InFile F (pageNo + k : Int) := ⟨by omega, by omega⟩
      have last := (inFile_iff_le delivers (pageNo + k) (by omega)).mp
        (by rw [Int.natCast_add]; exact inFile)
      split
      · have rest := ih (k + 1) cached t length (Nat.succ_pos k)
        omega
      · obtain ⟨total, answer⟩ := delivers.page t.requests (pageNo + k) inFile
        rw [brings_206 server fallbackFull _ _ t _ total (fun both => absurd both.2 (by omega))
          answer]
        have rest := ih (k + 1) (Recent.insert cap (pageNo + k) cached)
          { t with requests := t.requests + 1 } length (Nat.succ_pos k)
        simp only [List.length_cons]
        omega

theorem prefetchCount_le_after (delivers : Delivers server F) {s : HttpState}
    (mirrors : Mirrors F s) (pageNo : Nat) (inFile : InFile F pageNo) :
    prefetchCount server pageNo s ≤ (F.length - 1) / filePageSize F + 1 - pageNo := by
  obtain ⟨total, answer⟩ := delivers.page s.requests pageNo inFile
  have length : s.transfers.contentLength = F.length := mirrors.length
  rw [prefetchCount, mirrors.pageSize, brings_206 server s.file.fallbackFull _ _ s.transfers _ total
    (fun both => absurd both.2 (by omega)) answer]
  have pages := prefetchedPages_le delivers s.file.fallbackFull s.file.cacheCapacity pageNo
    (Int.natCast_pos.mp inFile.1) s.file.prefetchPages.toNat 1
    (Recent.insert s.file.cacheCapacity (pageNo : Int) s.file.pages)
    { s.transfers with requests := s.transfers.requests + 1 } length Nat.one_pos
  refine pages.trans ?_
  omega

/-- What the settings and the length of the file promise: pages are copied before they are
pushed out of the cache. -/
def Fits (env : Environment) (F : Bytes) (iOfst : Nat) : Prop :=
  env.prefetch < env.capacity (filePageSize F) ∨ pagesAfter F iOfst < env.capacity (filePageSize F)

theorem keepsPages_of_fits (delivers : Delivers server F) {s : HttpState} (mirrors : Mirrors F s)
    (ready : Ready env s) (iOfst : Nat) (fits : Fits env F iOfst) :
    KeepsPages server F (iOfst / filePageSize F + 1) s := by
  have capacity := ready.capacity mirrors.mode.probed
  rw [mirrors.pageSize] at capacity
  rcases fits with fewer | short
  · refine keepsPages_of_fewer _ s ?_ (ready.cached.arrays.room mirrors.mode.probed)
    rw [ready.prefetch, capacity]
    exact fewer
  · intro s' mirrors' settings pn reached inFile _
    have count := prefetchCount_le_after delivers mirrors' pn inFile
    rw [settings.cacheCapacity, capacity]
    rw [pagesAfter] at short
    omega

/-- The page with the end of the file is copied further than it was received, unless a page
behind it is requested first, which is an error. -/
theorem readLoop_overrun (follows : FollowsRfc7233 server F) (delivers : Delivers server F)
    (start fin last : Nat) (outside : F.length < fin) (lastPage : (fin - 1) / filePageSize F = last)
    (more : Nat) :
    ∀ pn pos out s, Mirrors F s → 0 < pn → (pn - 1) * filePageSize F ≤ pos →
      pos < (pn - 1) * filePageSize F + filePageSize F → pos < fin → pn + more = last + 2 →
      ∀ rc out' s', readLoop server env (filePageSize F) start fin more pn pos out s =
        .ok (rc, out', s') → rc = .ioerr := by
  have positivePs : 0 < filePageSize F := headerPageSize_pos (F.take 32)
  induction more with
  | zero =>
      intro pn pos out s _ positive begun within unfinished rounds
      exact absurd rounds (unfinished_within _ fin last pn pos positivePs lastPage begun unfinished)
  | succ more ih =>
      intro pn pos out s mirrors positive begun within unfinished rounds rc out' s' run
      rw [readLoop] at run
      by_cases inFile : InFile F pn
      · obtain ⟨p, s₁, requested, returned⟩ := page_returned env delivers mirrors pn inFile
        rw [requested] at run
        simp only [bind, Except.bind, copiedPart_eq (filePageSize F) fin pn pos begun] at run
        rw [if_pos (by omega)] at run
        by_cases kept : (s.file.index? pn).isSome ∨ prefetchCount server pn s < s.file.cacheCapacity
        · rw [load_page F s₁ p pn pos
            (min ((pn - 1) * filePageSize F + filePageSize F) fin - pos) positive
            (returned.held kept) begun (by omega) (by omega)] at run
          by_cases inside : pos + (min ((pn - 1) * filePageSize F + filePageSize F) fin - pos) ≤
              F.length
          · rw [if_pos inside] at run
            have next : (pn + 1 - 1) * filePageSize F =
                (pn - 1) * filePageSize F + filePageSize F := by
              rw [Nat.add_sub_cancel, ← Nat.succ_mul, show (pn - 1).succ = pn by omega]
            exact ih (pn + 1) _ _ s₁ returned.mirrors (Nat.succ_pos pn) (by omega) (by omega)
              (by omega) (by omega) rc out' s' run
          · rw [if_neg inside] at run
            cases run
        · rw [load_gone s₁ p _ _ (returned.freed kept) (by omega)] at run
          cases run
      · rw [page_refused follows mirrors pn (by omega) inFile] at run
        simp only [bind, Except.bind] at run
        cases run
        rfl

/-- In a file that has just been probed, every page after the first one that is requested is
prefetched, as far as the settings and the file go. -/
theorem prefetchCount_fresh (delivers : Delivers server F) {s : HttpState} (mirrors : Mirrors F s)
    (empty : s.file.entries = []) (q last : Nat)
    (lastPage : (F.length - 1) / filePageSize F = last) :
    min s.file.prefetchPages.toNat (last - q) ≤ prefetchCount server (q + 1 : Nat) s := by
  have inFile : ∀ pn : Int, 0 < pn → pn ≤ (q + 1 : Nat) + (last - q : Nat) → q ≤ last →
      InFile F pn := by
    intro pn positive within ordered
    obtain ⟨k, rfl⟩ : ∃ k : Nat, pn = k := ⟨pn.toNat, by omega⟩
    refine (inFile_iff_le delivers k (by omega)).mpr ?_
    rw [lastPage]
    omega
  rcases Nat.lt_or_ge last q with behind | ordered
  · rw [Nat.sub_eq_zero_of_le (Nat.le_of_lt behind), Nat.min_zero]
    exact Nat.zero_le _
  · refine prefetchCount_ge server (q + 1 : Nat) (last - q) ?_ ?_ ?_
    · intro pn within both
      rw [mirrors.length, mirrors.pageSize] at both
      have positive : 0 < pn := by
        by_contra negative
        have product : (pn - 1) * (filePageSize F : Int) ≤ 0 :=
          Int.mul_nonpos_of_nonpos_of_nonneg (by omega) (by omega)
        omega
      exact absurd (inFile pn positive within ordered).2 (by omega)
    · intro n pn first within
      obtain ⟨total, answer⟩ := delivers.page n pn (inFile pn (by omega) within ordered)
      rw [mirrors.pageSize]
      exact ⟨_, total, answer, fun both => absurd both.2 (by rw [mirrors.length]; omega)⟩
    · intro pn _
      rw [HttpFile.pages, ← entries_pages mirrors.cached.arrays, empty]
      exact List.not_mem_nil

/-- A read that begins in the file, but whose first page is pushed out by those after it. -/
theorem httpRead_lost (delivers : Delivers server F) (iAmt iOfst q : Nat)
    (first : iOfst / filePageSize F = q) (some_ : 0 < iAmt) (inside : iOfst + iAmt ≤ F.length)
    (tooMany : ¬ Fits env F iOfst) (zBuf : Bytes) :
    httpRead server env iAmt iOfst zBuf (unusedFile env) = .error .outOfBounds := by
  have positivePs : 0 < filePageSize F := headerPageSize_pos (F.take 32)
  obtain ⟨s₁, probe, mirrors, prefetch, capacity, empty⟩ := probe_mirrors env delivers
    (s := unusedFile env) ⟨rfl, rfl⟩
  have begun : q * filePageSize F ≤ iOfst := first ▸ Nat.div_mul_le_self _ _
  have below : iOfst < q * filePageSize F + filePageSize F := first ▸ Nat.lt_div_mul_add positivePs
  have ordered : q ≤ (iOfst + iAmt - 1) / filePageSize F := first ▸ Nat.div_le_div_right (by omega)
  have inFile : InFile F (q + 1 : Nat) := by
    rw [inFile_cast F (q + 1) (Nat.succ_pos q), Nat.add_sub_cancel]
    omega
  have count := prefetchCount_fresh delivers mirrors empty q _ rfl
  have lost : ¬ ((s₁.file.index? (q + 1 : Nat)).isSome ∨
      prefetchCount server (q + 1 : Nat) s₁ < s₁.file.cacheCapacity) := by
    have new : s₁.file.index? (q + 1 : Nat) = none := by
      rw [index?_none mirrors.cached.arrays, empty]
      exact List.not_mem_nil
    rw [Fits, pagesAfter, first] at tooMany
    rw [prefetch] at count
    change min env.prefetch.toNat _ ≤ _ at count
    rw [new, capacity]
    simp only [Option.isSome_none, Bool.false_eq_true, false_or]
    omega
  obtain ⟨p, s₂, requested, returned⟩ := page_returned env delivers mirrors
    (q + 1 : Nat) inFile
  rw [httpRead_probe rfl probe mirrors, httpRead, mirrors.mode.undownloaded, probe_mirrored mirrors]
  simp only [mirrors.pageSize, bind, Except.bind, first]
  rw [show (iOfst + iAmt - 1) / filePageSize F + 1 + 1 - (q + 1) =
    (iOfst + iAmt - 1) / filePageSize F - q + 1 by omega, readLoop, requested]
  simp only [bind, Except.bind, copiedPart_eq (filePageSize F) (iOfst + iAmt) (q + 1) iOfst
    (by rw [Nat.add_sub_cancel]; exact begun)]
  rw [if_pos (by rw [Nat.add_sub_cancel]; omega),
    load_gone s₂ p _ _ (returned.freed lost) (by rw [Nat.add_sub_cancel]; omega)]

/-- Range mode agrees with the downloaded file exactly on the reads that end within the file,
if their pages are not pushed out of the cache. -/
theorem agrees_iff (server : Server) (env : Environment) (F : Bytes)
    (follows : FollowsRfc7233 server F) (nonempty : 0 < F.length) (iAmt iOfst : Nat)
    (some_ : 0 < iAmt) :
    Agrees server env F iAmt iOfst ↔ iOfst + iAmt ≤ F.length ∧ Fits env F iOfst := by
  have delivers := rfc7233_delivers follows nonempty
  have positivePs : 0 < filePageSize F := headerPageSize_pos (F.take 32)
  constructor
  · intro agrees
    have reachable := unusedFile_reachable server env
    obtain ⟨s', _, read, _⟩ := agrees (unusedFile env) (List.replicate iAmt 0) reachable
      List.length_replicate
    by_cases inside : iOfst + iAmt ≤ F.length
    · refine ⟨inside, ?_⟩
      by_contra tooMany
      rw [httpRead_lost delivers iAmt iOfst _ rfl some_ inside tooMany] at read
      cases read
    · exfalso
      have short : (expectedRead F iAmt iOfst).1 = .shortRead := if_neg inside
      obtain ⟨s₁, mirrors, _, same⟩ := reachable_probed follows delivers _ reachable
      obtain ⟨q, first⟩ : ∃ q, iOfst / filePageSize F = q := ⟨_, rfl⟩
      obtain ⟨last, lastPage⟩ : ∃ last, (iOfst + iAmt - 1) / filePageSize F = last := ⟨_, rfl⟩
      have ordered : q ≤ last := first ▸ lastPage ▸ Nat.div_le_div_right (by omega)
      rw [same, httpRead, mirrors.mode.undownloaded, probe_mirrored mirrors] at read
      simp only [mirrors.pageSize, bind, Except.bind, first, lastPage] at read
      cases loop : readLoop server env (filePageSize F) iOfst (iOfst + iAmt)
          (last + 1 + 1 - (q + 1)) (q + 1) iOfst (List.replicate iAmt 0) s₁ with
      | error f =>
          rw [loop] at read
          cases read
      | ok r =>
          obtain ⟨rc, out, s₂⟩ := r
          have failed := readLoop_overrun follows delivers iOfst (iOfst + iAmt) last
            (Nat.lt_of_not_le inside) lastPage _ (q + 1) iOfst _ s₁ mirrors (Nat.succ_pos q)
            (first ▸ Nat.div_mul_le_self _ _) (first ▸ Nat.lt_div_mul_add positivePs) (by omega)
            (by omega) rc out s₂ loop
          rw [loop, failed, short] at read
          cases read
  · rintro ⟨inside, fits⟩ s zBuf reachable size
    obtain ⟨s₁, mirrors, ready, same⟩ := reachable_probed follows delivers s reachable
    obtain ⟨s', read, _⟩ := httpRead_mirrored env delivers mirrors iAmt iOfst zBuf
      ⟨some_, inside, size⟩ (keepsPages_of_fits delivers mirrors ready iOfst fits)
    have expected : expectedRead F iAmt iOfst = (.ok, (F.drop iOfst).take iAmt) := by
      rw [expectedRead, if_pos inside, show iAmt - (F.length - iOfst) = 0 by omega,
        List.replicate_zero, List.append_nil]
    refine ⟨s', s.downloaded F, ?_, httpRead_downloaded iAmt iOfst zBuf s⟩
    rw [same, read, expected]

/-- A server for a file, as RFC 7233 has it. -/
def rfcServer (F : Bytes) : Server where
  head _ := .answered 200 F.length
  range _ first last :=
    if first < F.length then
      .answered 206 ((F.drop first.toNat).take (last - first + 1).toNat) F.length
    else .answered 416 [] (-1)
  download _ := .answered 200 F (-1)

theorem rfcServer_follows (F : Bytes) : FollowsRfc7233 (rfcServer F) F where
  head _ := ⟨200, by decide, rfl⟩
  satisfiable n first last ordered inside := by
    refine ⟨F.length, ?_⟩
    rw [rfcServer]
    simp only
    rw [if_pos (by omega), Int.toNat_natCast,
      show ((last : Int) - first + 1).toNat = last - first + 1 by omega]
  unsatisfiable n first last ordered outside := by
    refine ⟨[], -1, ?_⟩
    rw [rfcServer]
    simp only
    rw [if_neg (by omega)]

theorem agrees_iff_within : Agrees (rfcServer [1, 2, 3]) ⟨none, none, none⟩ [1, 2, 3] 2 1 :=
  (agrees_iff (rfcServer [1, 2, 3]) ⟨none, none, none⟩ [1, 2, 3] (rfcServer_follows [1, 2, 3])
    (by decide) 2 1 (by decide)).mpr ⟨by decide, .inl (by decide)⟩

/-- The last byte of the file and one more: the page is copied further than it was received. -/
theorem agrees_overrun :
    httpRead (rfcServer [1, 2, 3]) ⟨none, none, none⟩ 2 2 [0, 0] (unusedFile ⟨none, none, none⟩) =
        .error .outOfBounds ∧
      ¬ Agrees (rfcServer [1, 2, 3]) ⟨none, none, none⟩ [1, 2, 3] 2 2 := by
  have read : httpRead (rfcServer [1, 2, 3]) ⟨none, none, none⟩ 2 2 [0, 0]
      (unusedFile ⟨none, none, none⟩) = .error .outOfBounds := by decide +kernel
  refine ⟨read, fun agrees => ?_⟩
  obtain ⟨s', _, read', _⟩ := agrees _ [0, 0] (unusedFile_reachable _ _) rfl
  rw [read] at read'
  cases read'

end RSQLite
