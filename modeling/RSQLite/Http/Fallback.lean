import RSQLite.Http.Exact

/-!
A server that may ignore a range and answer with the whole file. The file is then downloaded,
but the body of that answer is still taken for the page that was asked for.
-/
namespace RSQLite

open Buffers

variable {server : Server} {env : Environment} {F : Bytes}

/-- Each request for bytes of the file is answered with these bytes or with the whole file,
and a download that succeeds brings the file. -/
structure MayIgnoreRanges (server : Server) (F : Bytes) : Prop where
  range : ∀ n (first last : Nat), first ≤ last → last < F.length → ∃ total,
    server.range n first last = .answered 206 ((F.drop first).take (last - first + 1)) total ∨
      server.range n first last = .answered 200 F total
  download : ∀ n code body total, server.download n = .answered code body total → code < 400 →
    body = F

/-- The file is not empty and made of pages. -/
structure MadeOfPages (F : Bytes) (pages : Nat) : Prop where
  some : 0 < pages
  length : F.length = pages * filePageSize F

/-- What is asked of the buffer of a page: a page of the file has its bytes. -/
def Right (F : Bytes) (pageNo : Int) (buf : Bytes) : Prop := InFile F pageNo → buf = pageOf F pageNo

/-- A file that has been probed, and perhaps downloaded. While it is not, its cache is right. -/
structure Serving (F : Bytes) (s : HttpState) : Prop where
  probed : s.file.haveMeta = true
  pageSize : s.file.pageSize = filePageSize F
  cached : Cached (fun _ _ => True) s
  downloaded : s.file.data = none ∨ s.file.data = some F
  right : s.file.data = none → Cached (Right F) s

theorem Serving.requested {s : HttpState} (serving : Serving F s) (n : Nat) :
    Serving F { s with requests := n } where
  probed := serving.probed
  pageSize := serving.pageSize
  cached := ⟨serving.cached.arrays, serving.cached.holds⟩
  downloaded := serving.downloaded
  right undownloaded := ⟨serving.cached.arrays, (serving.right undownloaded).holds⟩

theorem MadeOfPages.long {pages : Nat} (made : MadeOfPages F pages) : 512 ≤ F.length := by
  rw [made.length]
  exact Nat.le_trans (headerPageSize_ge (F.take 32)) (Nat.le_mul_of_pos_left _ made.some)

/-- A page of the file is answered with its bytes or with the whole file. -/
theorem page_answer (ignores : MayIgnoreRanges server F) {pages : Nat}
    (made : MadeOfPages F pages) (n : Nat) (pageNo : Int) (inFile : InFile F pageNo) : ∃ total,
    server.range n ((pageNo - 1) * filePageSize F)
        ((pageNo - 1) * filePageSize F + filePageSize F - 1) =
          .answered 206 (pageOf F pageNo) total ∨
      server.range n ((pageNo - 1) * filePageSize F)
        ((pageNo - 1) * filePageSize F + filePageSize F - 1) = .answered 200 F total := by
  have positivePs : 0 < filePageSize F := headerPageSize_pos (F.take 32)
  obtain ⟨k, _, first, last, page⟩ := page_request F pageNo inFile.1
  have begins := inFile.2
  rw [first] at begins
  have inside := page_inside pages k made.length (by omega)
  obtain ⟨total, answer⟩ := ignores.range n (k * filePageSize F)
    (k * filePageSize F + filePageSize F - 1) (by omega) (by omega)
  refine ⟨total, ?_⟩
  rw [last, first, page]
  rwa [show k * filePageSize F + filePageSize F - 1 - k * filePageSize F + 1 = filePageSize F by
    omega] at answer

/-- A page that is received is inserted; if it makes the file known, the cache does not matter
any more. -/
theorem serving_inserted (ignores : MayIgnoreRanges server F) {pages : Nat}
    (made : MadeOfPages F pages) {s : HttpState} (serving : Serving F s) (pn : Int)
    (new : s.file.index? pn = none) (rc : Rc) (buf : Option Nat) (s' : HttpState)
    (fetched : httpFetchRange server ((pn - 1) * s.file.pageSize) s.file.pageSize s =
      (rc, buf, s')) :
    if rc = .ok then ∃ s'', insertFront pn buf s' = .ok s'' ∧ Serving F s'' else Serving F s' := by
  have ends := httpFetchRange_fetched server ((pn - 1) * s.file.pageSize) s.file.pageSize s
  rw [fetched] at ends
  -- an insertion keeps what holds of the file, and the cache if the new page is right
  have inserted : ∀ body data contentLength n, (data = none ∨ data = some F) →
      (data = none → s.file.data = none ∧ Right F pn body) →
      ∃ s'', insertFront pn (alloc s.heap body).1 (s.received body data contentLength n) = .ok s'' ∧
        Serving F s'' := by
    intro body data contentLength n known right
    obtain ⟨s'', run, insertion⟩ := received_inserted serving.cached serving.probed pn new body
      trivial data contentLength n
    obtain ⟨count, cells, file⟩ := insertion.file
    have data' : s''.file.data = data := by
      rw [file]
      rfl
    refine ⟨s'', run, insertion.settings.haveMeta.trans serving.probed,
      insertion.settings.pageSize.trans serving.pageSize, insertion.cached, ?_, ?_⟩
    · rw [data']
      exact known
    · intro undownloaded
      rw [data'] at undownloaded
      obtain ⟨undownloaded', isRight⟩ := right undownloaded
      obtain ⟨s₂, run₂, insertion₂⟩ :=
        received_inserted (serving.right undownloaded') serving.probed
        pn new body isRight data contentLength n
      cases run.symm.trans run₂
      exact insertion₂.cached
  cases ends with
  | refused rc n bad =>
      rw [if_neg bad]
      exact serving.requested n
  | range body total n answer =>
      rw [if_pos rfl]
      refine inserted body s.file.data _ n serving.downloaded (fun undownloaded =>
        ⟨undownloaded, fun inFile => ?_⟩)
      rw [serving.pageSize] at answer
      obtain ⟨total', answer' | answer'⟩ := page_answer ignores made s.requests pn inFile
      · exact (Answer.answered.inj (answer.symm.trans answer')).2.1
      · exact absurd (Answer.answered.inj (answer.symm.trans answer')).1 (by decide)
  | whole code body total m code' file total' n answer ignored fallback undone download accepted =>
      rw [if_pos rfl]
      have whole := ignores.download m code' file total' download accepted
      have nonempty : F ≠ [] := List.ne_nil_of_length_pos (Nat.lt_of_lt_of_le (by decide) made.long)
      rw [whole, if_neg nonempty]
      exact inserted body (some F) _ n (.inr rfl) (fun undownloaded => by cases undownloaded)

theorem headerPageSize_take (F : Bytes) : headerPageSize F = filePageSize F := by
  have part : (F.take 32).drop 16 = (F.drop 16).take 16 := List.drop_take
  rw [filePageSize, headerPageSize, headerPageSize, part]
  cases F.drop 16 with
  | nil => rfl
  | cons high rest =>
      cases rest with
      | nil => rfl
      | cons low rest => rfl

theorem probe_serving (env : Environment) (ignores : MayIgnoreRanges server F) {pages : Nat}
    (made : MadeOfPages F pages) (s : HttpState) (before : Unprobed s ∨ Serving F s) :
    Unprobed (httpProbeMeta server env s).2 ∨ Serving F (httpProbeMeta server env s).2 := by
  have ends := httpProbeMeta_ends server env s
  generalize httpProbeMeta server env s = probe at ends
  cases ends with
  | before probed => exact before
  | refused unprobed contentLength n =>
      rcases before with fresh | serving
      · exact .inl ⟨unprobed, fresh.undownloaded⟩
      · exact absurd (unprobed.symm.trans serving.probed) Bool.false_ne_true
  | now unprobed code header total answer =>
      rcases before with fresh | serving
      · have long := made.long
        obtain ⟨total', answer'⟩ := ignores.range (s.requests + 1) 0 31 (by decide) (by omega)
        have pageSize : headerPageSize header = filePageSize F := by
          rcases answer' with part | whole
          · rw [(Answer.answered.inj (answer.symm.trans part)).2.1]
            rfl
          · rw [(Answer.answered.inj (answer.symm.trans whole)).2.1]
            exact headerPageSize_take F
        exact .inr ⟨rfl, pageSize, probed_cached env _ s _ header _, .inl fresh.undownloaded,
          fun _ => probed_cached env _ s _ header _⟩
      · exact absurd (unprobed.symm.trans serving.probed) Bool.false_ne_true

theorem hitPage_serving {s : HttpState} (serving : Serving F s) (undownloaded : s.file.data = none)
    (pageNo : Int) (i : Nat) (found : s.file.index? pageNo = some i) :
    ∃ p s', hitPage pageNo i s = .ok (.ok, some (.buffer p), s') ∧ Serving F s' ∧
      (InFile F pageNo → contents s'.heap p = some (pageOf F pageNo)) := by
  obtain ⟨p, cells, run, _, right, entries⟩ :=
      hitPage_ok (serving.right undownloaded) pageNo i found
  refine ⟨p, _, run, ⟨serving.probed, serving.pageSize,
    right.weaken _ (fun _ _ _ _ => trivial), serving.downloaded, fun _ => right⟩, fun inFile => ?_⟩
  have member : (pageNo, p) ∈ (s.file.withCache s.file.cacheCount cells).entries :=
    entries ▸ List.mem_cons_self
  obtain ⟨buf, held, isRight⟩ := right.holds.held _ member
  rw [isRight inFile] at held
  exact held

/-- A page that is fetched, with the pages after it. -/
theorem missPage_serving (ignores : MayIgnoreRanges server F) {pages : Nat}
    (made : MadeOfPages F pages) {s : HttpState} (serving : Serving F s) (pageNo : Int)
    (new : s.file.index? pageNo = none) (rc : Rc) (p : Option PagePointer) (s' : HttpState)
    (run : missPage server pageNo s = .ok (rc, p, s')) : Serving F s' := by
  rw [missPage] at run
  cases fetch : httpFetchRange server ((pageNo - 1) * s.file.pageSize) s.file.pageSize s with
  | mk rc₁ r =>
      obtain ⟨buf, s₁⟩ := r
      have kept := serving_inserted ignores made serving pageNo new rc₁ buf s₁ fetch
      rw [fetch] at run
      cases rc₁ with
      | ok =>
          rw [if_pos rfl] at kept
          obtain ⟨s₂, inserted, serving₂⟩ := kept
          obtain ⟨s₃, prefetched, serving₃⟩ := prefetchLoop_keeps server (Serving F) pageNo
            (fun s pn serving _ _ new rc buf s' => serving_inserted ignores made serving pn new rc
              buf s') s₂.file.prefetchPages.toNat 1 s₂ Nat.one_pos serving₂
          simp only [inserted, bind, Except.bind] at run
          rw [prefetched] at run
          cases run
          exact serving₃
      | ioerr | shortRead | corrupt | cantopen =>
          rw [if_neg (by decide)] at kept
          cases run
          exact kept

/-- A request keeps what holds of the file. -/
theorem getPage_serving (env : Environment) (ignores : MayIgnoreRanges server F) {pages : Nat}
    (made : MadeOfPages F pages) {s : HttpState} (serving : Serving F s) (pageNo : Int) (rc : Rc)
    (p : Option PagePointer) (s' : HttpState)
    (requested : httpGetPage server env pageNo s = .ok (rc, p, s')) : Serving F s' := by
  by_cases positive : 0 < pageNo
  · cases data : s.file.data with
    | some d =>
        rw [httpGetPage, if_neg (Int.not_le.mpr positive), data] at requested
        simp only at requested
        split at requested
        · cases requested
          exact serving
        · cases requested
          exact serving
    | none =>
        rw [getPage_rangeMode server env ⟨serving.probed, data⟩ pageNo positive] at requested
        cases found : s.file.index? pageNo with
        | some i =>
            rw [found] at requested
            obtain ⟨_, s₁, run, serving₁, _⟩ := hitPage_serving serving data pageNo i found
            cases requested.symm.trans run
            exact serving₁
        | none =>
            rw [found] at requested
            exact missPage_serving ignores made serving pageNo found rc p s' requested
  · rw [httpGetPage, if_pos (Int.not_lt.mp positive)] at requested
    cases requested
    exact serving

/-- A file has not been probed, or its cache is right until it is downloaded. -/
theorem reachable_serving (ignores : MayIgnoreRanges server F) {pages : Nat}
    (made : MadeOfPages F pages) (s : HttpState) (reachable : HttpReachable server env s) :
    Unprobed s ∨ Serving F s := by
  refine httpReachable_keeps (fun s => Unprobed s ∨ Serving F s)
    (fun zName f opens => .inl (unprobed_open zName f opens)) (probe_serving env ignores made) ?_ s
    reachable
  rintro pageNo s rc p s' (fresh | serving) requested
  · have probed := probe_serving env ignores made s (.inl fresh)
    by_cases positive : 0 < pageNo
    · cases probe : httpProbeMeta server env s with
      | mk rc₁ s₁ =>
          rw [probe] at probed
          cases rc₁ with
          | ok =>
              have mode := probe_rangeMode fresh.undownloaded probe
              rw [getPage_probe server env pageNo fresh.undownloaded probe mode,
                if_neg (Int.not_le.mpr positive)] at requested
              rcases probed with fresh₁ | serving₁
              · exact absurd (fresh₁.unprobed.symm.trans mode.probed) Bool.false_ne_true
              · exact .inr (getPage_serving env ignores made serving₁ pageNo rc p s' requested)
          | ioerr | shortRead | corrupt | cantopen =>
              rw [httpGetPage, if_neg (Int.not_le.mpr positive), fresh.undownloaded, probe]
                at requested
              cases requested
              exact probed
    · rw [httpGetPage, if_pos (Int.not_lt.mp positive)] at requested
      cases requested
      exact .inl fresh
  · exact .inr (getPage_serving env ignores made serving pageNo rc p s' requested)

/-- The range of a page is not ignored. -/
def Honours (server : Server) (pageNo : Int) (s : HttpState) : Prop :=
  ∃ body total, server.range s.requests ((pageNo - 1) * s.file.pageSize)
    ((pageNo - 1) * s.file.pageSize + s.file.pageSize - 1) = .answered 206 body total

/-- The file is downloaded, or the page is cached. Else its range is not ignored, unless the
page is like the first one, and, by the numbers of the cached pages and the answers, too few
pages are inserted after it to push it out. -/
def FindsPage (server : Server) (F : Bytes) (pageNo : Int) (s : HttpState) : Prop :=
  s.file.data ≠ none ∨ (s.file.index? pageNo).isSome ∨
    (Honours server pageNo s ∨ pageOf F pageNo = pageOf F 1) ∧
      prefetchCount server pageNo s < s.file.cacheCapacity

theorem load_buffer (s : HttpState) (p : Option Nat) (buf : Bytes) (n : Nat)
    (held : contents s.heap p = some buf) (inside : n ≤ buf.length) :
    s.load (.buffer p) 0 n = .ok (buf.take n) := by
  rw [HttpState.load, Buffers.read, held]
  simp only
  rw [if_pos (by omega), List.drop_zero]

theorem alloc_inj (h : Heap UInt8) (buf buf' : Bytes) (same : alloc h buf = alloc h buf') :
    buf = buf' := by
  have held := contents_alloc h buf
  rw [same, contents_alloc] at held
  exact (Option.some.inj held).symm

/-- The body of the answer is handed out: that of a 200 is the whole file. -/
theorem fetched_body (ignores : MayIgnoreRanges server F) {pages : Nat}
    (made : MadeOfPages F pages) {s : HttpState} (serving : Serving F s) (pageNo : Int)
    (inFile : InFile F pageNo) (body : Bytes) (data : Option Bytes) (contentLength : Int) (n : Nat)
    (fetch : httpFetchRange server ((pageNo - 1) * s.file.pageSize) s.file.pageSize s =
      (.ok, (alloc s.heap body).1, s.received body data contentLength n)) :
    Honours server pageNo s ∧ body = pageOf F pageNo ∨
      ¬ Honours server pageNo s ∧ body = F := by
  have ends := httpFetchRange_fetched server ((pageNo - 1) * s.file.pageSize) s.file.pageSize s
  rw [fetch] at ends
  have same : ∀ body' data' contentLength' n',
      (Rc.ok, (alloc s.heap body).1, s.received body data contentLength n) =
        (Rc.ok, (alloc s.heap body').1, s.received body' data' contentLength' n') →
      body = body' := by
    intro body' data' contentLength' n' same
    have parts := (Prod.mk.inj same).2
    exact alloc_inj s.heap body body' (Prod.ext (congrArg (·.1) parts) (congrArg (·.2.heap) parts))
  obtain ⟨total', answer'⟩ := page_answer ignores made s.requests pageNo inFile
  rw [← serving.pageSize] at answer'
  generalize ended : (Rc.ok, (alloc s.heap body).1, s.received body data contentLength n) = result
    at ends
  cases ends with
  | refused rc n' bad => exact absurd (Prod.mk.inj ended).1.symm bad
  | range body' total n' answer =>
      refine .inl ⟨⟨body', total, answer⟩, (same _ _ _ _ ended).trans ?_⟩
      rcases answer' with part | whole
      · exact (Answer.answered.inj (answer.symm.trans part)).2.1
      · exact absurd (Answer.answered.inj (answer.symm.trans whole)).1 (by decide)
  | whole code body' total m code' file total'' n' answer ignored =>
      have ignores : ¬ Honours server pageNo s := by
        rintro ⟨body₂, total₂, answer₂⟩
        exact ignored (Answer.answered.inj (answer.symm.trans answer₂)).1
      refine .inr ⟨ignores, (same _ _ _ _ ended).trans ?_⟩
      rcases answer' with part | whole
      · exact absurd ⟨_, _, part⟩ ignores
      · exact (Answer.answered.inj (answer.symm.trans whole)).2.1

theorem pageOf_one (F : Bytes) : pageOf F 1 = F.take (filePageSize F) := by
  have first := pageOf_cast F 1 Nat.one_pos
  rwa [Nat.sub_self, Nat.zero_mul, List.drop_zero] at first

theorem pageOf_length {pages : Nat} (made : MadeOfPages F pages) (pageNo : Int)
    (inFile : InFile F pageNo) : (pageOf F pageNo).length = filePageSize F := by
  obtain ⟨k, _, first, _, page⟩ := page_request F pageNo inFile.1
  have begins := inFile.2
  rw [first] at begins
  have inside := page_inside pages k made.length (by omega)
  rw [page, List.length_take, List.length_drop]
  omega

/-- A page that is fetched is right exactly if it is the body that was sent for it, and is not
pushed out. -/
theorem missPage_right (ignores : MayIgnoreRanges server F) {pages : Nat}
    (made : MadeOfPages F pages) {s : HttpState} (serving : Serving F s) (pageNo : Int)
    (inFile : InFile F pageNo) (new : s.file.index? pageNo = none) (p : PagePointer)
    (s' : HttpState) (run : missPage server pageNo s = .ok (.ok, some p, s')) :
    s'.load p 0 (filePageSize F) = .ok (pageOf F pageNo) ↔
      (Honours server pageNo s ∨ pageOf F pageNo = pageOf F 1) ∧
        prefetchCount server pageNo s < s.file.cacheCapacity := by
  have positivePs : 0 < filePageSize F := headerPageSize_pos (F.take 32)
  have size := pageOf_length made pageNo inFile
  rcases missPage_ends server serving.cached serving.probed pageNo new with
    ⟨rc, n, _, _, run'⟩ | ⟨body, data, contentLength, n, s₁, fetch, run', obtained⟩
  · cases run.symm.trans run'
  · cases run.symm.trans run'
    have bodies := fetched_body ignores made serving pageNo inFile body data contentLength n fetch
    by_cases kept : prefetchCount server pageNo s < s.file.cacheCapacity
    · obtain ⟨buf, held, same⟩ := obtained.cached.holds.held _ (obtained.alive.mpr kept)
      rw [same rfl] at held
      rcases bodies with ⟨honours, rfl⟩ | ⟨ignored, rfl⟩
      · rw [load_buffer s' _ _ _ held (Nat.le_of_eq size.symm),
          List.take_of_length_le (Nat.le_of_eq size)]
        exact iff_of_true rfl ⟨.inl honours, kept⟩
      · have long : filePageSize body ≤ body.length := by
          rw [made.length]
          exact Nat.le_mul_of_pos_left _ made.some
        rw [load_buffer s' _ _ _ held long, ← pageOf_one]
        constructor
        · exact fun right => ⟨.inr (Except.ok.inj right).symm, kept⟩
        · rintro ⟨honours | alike, _⟩
          · exact absurd honours ignored
          · rw [alike]
    · have lost := fun alive => kept (obtained.alive.mp alive)
      rw [load_gone s' _ 0 _ (obtained.gone lost) positivePs]
      exact iff_of_false (fun right => by cases right) (fun finds => kept finds.2)

theorem getPage_right (ignores : MayIgnoreRanges server F) {pages : Nat}
    (made : MadeOfPages F pages) {s : HttpState} (serving : Serving F s) (pageNo : Int)
    (inFile : InFile F pageNo) (p : PagePointer) (s' : HttpState)
    (returned : httpGetPage server env pageNo s = .ok (.ok, some p, s')) :
    s'.load p 0 (filePageSize F) = .ok (pageOf F pageNo) ↔ FindsPage server F pageNo s := by
  cases data : s.file.data with
  | some d =>
      rcases serving.downloaded with undownloaded | downloaded
      · rw [undownloaded] at data
        cases data
      · cases data.symm.trans downloaded
        rw [httpGetPage, if_neg (Int.not_le.mpr inFile.1), data] at returned
        simp only at returned
        split at returned
        · cases returned
        · next long =>
            cases returned
            have known : s.file.data ≠ none := by
              rw [data]
              exact Option.some_ne_none F
            refine iff_of_true ?_ (.inl known)
            obtain ⟨k, _, first, _, _⟩ := page_request F pageNo inFile.1
            rw [serving.pageSize, first] at long
            rw [HttpState.load, data, serving.pageSize]
            simp only
            rw [if_pos (by rw [first]; omega), Nat.add_zero]
            rfl
  | none =>
      rw [getPage_rangeMode server env ⟨serving.probed, data⟩ pageNo inFile.1] at returned
      cases found : s.file.index? pageNo with
      | some i =>
          rw [found] at returned
          obtain ⟨p', s₁, run, _, held⟩ := hitPage_serving serving data pageNo i found
          cases returned.symm.trans run
          have size := pageOf_length made pageNo inFile
          rw [load_buffer s' p' _ _ (held inFile) (Nat.le_of_eq size.symm),
            List.take_of_length_le (Nat.le_of_eq size)]
          exact iff_of_true rfl (.inr (.inl (found ▸ rfl)))
      | none =>
          rw [found] at returned
          rw [missPage_right ignores made serving pageNo inFile found p s' returned, FindsPage,
            data,
            found]
          simp only [ne_eq, not_true_eq_false, Option.isSome_none, Bool.false_eq_true, false_or]

/-- In every state that can be reached, a page of the file is returned with its bytes exactly
if it is found once the file has been probed. -/
theorem returnsPage_iff (server : Server) (env : Environment) (F : Bytes)
    (ignores : MayIgnoreRanges server F) (pages : Nat) (made : MadeOfPages F pages) (s : HttpState)
    (reachable : HttpReachable server env s) (pageNo : Int) (inFile : InFile F pageNo)
    (p : PagePointer) (s' : HttpState)
    (returned : httpGetPage server env pageNo s = .ok (.ok, some p, s')) :
    s'.load p 0 (filePageSize F) = .ok (pageOf F pageNo) ↔
      FindsPage server F pageNo (httpProbeMeta server env s).2 := by
  have positive : ¬ pageNo ≤ 0 := Int.not_le.mpr inFile.1
  rcases reachable_serving ignores made s reachable with fresh | serving
  · have probed := probe_serving env ignores made s (.inl fresh)
    cases probe : httpProbeMeta server env s with
    | mk rc s₁ =>
        rw [probe] at probed
        cases rc with
        | ok =>
            have mode := probe_rangeMode fresh.undownloaded probe
            rw [getPage_probe server env pageNo fresh.undownloaded probe mode, if_neg positive]
              at returned
            rcases probed with fresh₁ | serving₁
            · exact absurd (fresh₁.unprobed.symm.trans mode.probed) Bool.false_ne_true
            · exact getPage_right ignores made serving₁ pageNo inFile p s' returned
        | ioerr | shortRead | corrupt | cantopen =>
            rw [httpGetPage, if_neg positive, fresh.undownloaded, probe] at returned
            cases returned
  · have probe : httpProbeMeta server env s = (.ok, s) := by
      rw [httpProbeMeta, serving.probed]
      rfl
    rw [probe]
    exact getPage_right ignores made serving pageNo inFile p s' returned

/-- A server that honours the ranges of the first page only. -/
def firstPageServer (F : Bytes) : Server where
  head _ := .answered 200 F.length
  range _ first last :=
    if first < filePageSize F then
      .answered 206 ((F.drop first.toNat).take (last - first + 1).toNat) F.length
    else .answered 200 F (-1)
  download _ := .answered 200 F (-1)

theorem firstPageServer_ignores (F : Bytes) : MayIgnoreRanges (firstPageServer F) F where
  range n first last ordered inside := by
    simp only [firstPageServer]
    split
    · refine ⟨F.length, .inl ?_⟩
      rw [Int.toNat_natCast, show ((last : Int) - first + 1).toNat = last - first + 1 by omega]
    · exact ⟨-1, .inr rfl⟩
  download n code body total answer _ := (Answer.answered.inj answer).2.1.symm

theorem twoPages_made : MadeOfPages twoPages 2 :=
  ⟨by decide, by decide +kernel⟩

theorem twoPages_inFile : InFile twoPages 2 := by
  rw [InFile]
  decide +kernel

/-- A page has been returned that is not this one. -/
def returnsOther (page : Bytes) : Outcome (Rc × Option PagePointer × HttpState) → Bool
  | .ok (.ok, some p, s) => decide (s.load p 0 page.length ≠ .ok page)
  | _ => false

theorem twoPages_returned : ∃ p s',
    httpGetPage (firstPageServer twoPages) ⟨none, none, none⟩ 2 (unusedFile ⟨none, none, none⟩) =
      .ok (.ok, some p, s') ∧
    s'.load p 0 (filePageSize twoPages) ≠ .ok (pageOf twoPages 2) := by
  have other : returnsOther (pageOf twoPages 2) (httpGetPage (firstPageServer twoPages)
      ⟨none, none, none⟩ 2 (unusedFile ⟨none, none, none⟩)) = true := by decide +kernel
  rw [← pageOf_length twoPages_made 2 twoPages_inFile]
  generalize httpGetPage (firstPageServer twoPages) ⟨none, none, none⟩ 2
    (unusedFile ⟨none, none, none⟩) = result at other ⊢
  match result, other with
  | .ok (.ok, some p, s'), other => exact ⟨p, s', rfl, of_decide_eq_true other⟩

theorem returnsPage_iff_second : ∃ p s',
    httpGetPage (firstPageServer twoPages) ⟨none, none, none⟩ 2 (unusedFile ⟨none, none, none⟩) =
      .ok (.ok, some p, s') ∧
    (s'.load p 0 (filePageSize twoPages) = .ok (pageOf twoPages 2) ↔
      FindsPage (firstPageServer twoPages) twoPages 2
        (httpProbeMeta (firstPageServer twoPages) ⟨none, none, none⟩
          (unusedFile ⟨none, none, none⟩)).2) := by
  obtain ⟨p, s', returned, _⟩ := twoPages_returned
  exact ⟨p, s', returned, returnsPage_iff _ _ twoPages (firstPageServer_ignores twoPages) 2
    twoPages_made _ (unusedFile_reachable _ _) 2 twoPages_inFile p s' returned⟩

/-- What the requests for pages promise: whatever has been requested before, the bytes of the
page. -/
def ReturnsPages (server : Server) (env : Environment) (F : Bytes) : Prop :=
  ∀ s, HttpReachable server env s → ∀ pageNo, InFile F pageNo → ∀ p s',
    httpGetPage server env pageNo s = .ok (.ok, some p, s') →
      s'.load p 0 (filePageSize F) = .ok (pageOf F pageNo)

theorem returnsPages_second :
    ¬ ∀ server env F pages, MayIgnoreRanges server F → MadeOfPages F pages →
      httpEnvBool env.fallbackFulldl true = true → ReturnsPages server env F := by
  intro returns
  obtain ⟨p, s', returned, wrong⟩ := twoPages_returned
  exact wrong (returns (firstPageServer twoPages) ⟨none, none, none⟩ twoPages 2
    (firstPageServer_ignores twoPages) twoPages_made rfl _ (unusedFile_reachable _ _) 2
    twoPages_inFile p s' returned)

end RSQLite
