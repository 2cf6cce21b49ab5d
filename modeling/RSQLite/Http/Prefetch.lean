import RSQLite.Http.Cache

/-!
The prefetch after a miss. It inserts pages in front of the one that was asked for, which
therefore survives exactly if fewer pages are inserted than the cache has room for.
-/
namespace RSQLite

open Buffers

variable {good : Int → Bytes → Prop} (server : Server)

/-- What the transfers have shown of a file: its length or -1, and whether it is downloaded. -/
structure Transfers where
  contentLength : Int
  downloaded : Bool
  requests : Nat
deriving DecidableEq, Repr

def HttpState.transfers (s : HttpState) : Transfers :=
  ⟨s.file.contentLength, s.file.data.isSome, s.requests⟩

/-- Whether the answers to the request for these bytes bring a body, and what they show. -/
def Transfers.brings (server : Server) (fallbackFull : Bool) (off : Int) (len : Nat)
    (t : Transfers) : Bool × Transfers :=
  match perform (server.range t.requests off (off + len - 1)) with
  | .failed => (false, { t with requests := t.requests + 1 })
  | .answered code _ total =>
      let length := if 0 < total ∧ t.contentLength < 0 then total else t.contentLength
      if 400 ≤ code then (false, { t with requests := t.requests + 1 })
      else if code = 206 then (true, ⟨length, t.downloaded, t.requests + 1⟩)
      else if fallbackFull = true ∧ t.downloaded = false then
        match perform (server.download (t.requests + 1)) with
        | .failed => (false, { t with requests := t.requests + 2 })
        | .answered code file _ =>
            if 400 ≤ code then (false, { t with requests := t.requests + 2 })
            else (true, ⟨length, decide (file ≠ []), t.requests + 2⟩)
      else (false, { t with requests := t.requests + 1 })

/-- The numbers of the cached pages, the most recent one first. -/
def HttpFile.pages (f : HttpFile) : List Int := f.cachePageNo.take f.cacheCount

/-- The pages that the prefetch inserts: neither cached when their turn comes nor refused. -/
def prefetchedPages (fallbackFull : Bool) (pageSize cap : Nat) (pageNo : Int) :
    Nat → Nat → List Int → Transfers → List Int
  | 0, _, _, _ => []
  | more + 1, k, cached, t =>
      if 0 < t.contentLength ∧ t.contentLength ≤ (pageNo + k - 1) * pageSize then []
      else if pageNo + k ∈ cached then
        prefetchedPages fallbackFull pageSize cap pageNo more (k + 1) cached t
      else
        match t.brings server fallbackFull ((pageNo + k - 1) * pageSize) pageSize with
        | (true, t) => (pageNo + k) :: prefetchedPages fallbackFull pageSize cap pageNo more (k + 1)
            (Recent.insert cap (pageNo + k) cached) t
        | (false, t) => prefetchedPages fallbackFull pageSize cap pageNo more (k + 1) cached t

/-- The answers decide how a fetch ends, whatever the cache and the memory hold. -/
theorem httpFetchRange_brings (off : Int) (len : Nat) (s : HttpState) :
    s.transfers.brings server s.file.fallbackFull off len =
      (decide ((httpFetchRange server off len s).1 = .ok),
        (httpFetchRange server off len s).2.2.transfers) := by
  rw [Transfers.brings, httpFetchRange, show s.transfers.requests = s.requests from rfl]
  cases perform (server.range s.requests off (off + len - 1)) with
  | failed => rfl
  | answered code body total =>
      simp only
      split
      · rfl
      split
      · rfl
      have undownloaded : s.transfers.downloaded = false ↔ s.file.data = none :=
        Option.isSome_eq_false_iff.trans Option.isNone_iff_eq_none
      by_cases fallback : s.file.fallbackFull = true ∧ s.file.data = none
      · rw [if_pos (And.imp_right undownloaded.mpr fallback), if_pos fallback, httpDownload,
          show s.answeredOnce.requests = s.requests + 1 from rfl]
        -- a download that fails leaves the file without data, as it was
        have unchanged : s.transfers = { s.transfers with downloaded := false } := by
          rw [HttpState.transfers, fallback.2]
          rfl
        cases perform (server.download (s.requests + 1)) with
        | failed =>
            rw [unchanged]
            rfl
        | answered code' file total' =>
            simp only
            split
            · rw [unchanged]
              rfl
            · cases file <;> rfl
      · rw [if_neg (fun both => fallback (And.imp_right undownloaded.mp both)), if_neg fallback]
        rfl

theorem received_inserted {s : HttpState} (cached : Cached good s) (probed : s.file.haveMeta = true)
    (pageNo : Int) (new : s.file.index? pageNo = none) (body : Bytes) (isGood : good pageNo body)
    (data : Option Bytes) (contentLength : Int) (n : Nat) :
    ∃ s', insertFront pageNo (alloc s.heap body).1 (s.received body data contentLength n) = .ok s' ∧
      Insertion good (pageNo, (alloc s.heap body).1) (s.received body data contentLength n) s' :=
  insertFront_ok (s := s.received body data contentLength n)
    (cached.arrays.received body data contentLength n) probed pageNo _
    (cached.holds.cons_alloc pageNo body ((index?_none cached.arrays pageNo).mp new) isGood)

/-- A property of the states that each page of the prefetch keeps. -/
theorem prefetchLoop_keeps (I : HttpState → Prop) (pageNo : Int)
    (keeps : ∀ s pn, I s → pageNo < pn → s.file.beyondEnd pn = false → s.file.index? pn = none →
      ∀ rc buf s', httpFetchRange server ((pn - 1) * s.file.pageSize) s.file.pageSize s =
        (rc, buf, s') → if rc = .ok then ∃ s'', insertFront pn buf s' = .ok s'' ∧ I s'' else I s')
    (more : Nat) : ∀ k s, 0 < k → I s →
      ∃ s', prefetchLoop server pageNo more k s = .ok s' ∧ I s' := by
  induction more with
  | zero => exact fun k s _ holds => ⟨s, rfl, holds⟩
  | succ more ih =>
      intro k s positive holds
      have later : pageNo < pageNo + k := by omega
      rw [prefetchLoop]
      cases beyond : s.file.beyondEnd (pageNo + k) with
      | true => exact ⟨s, rfl, holds⟩
      | false =>
          simp only [Bool.false_eq_true, if_false]
          cases found : s.file.index? (pageNo + k) with
          | some i => exact ih (k + 1) s (Nat.succ_pos k) holds
          | none =>
              simp only [Option.isSome_none, Bool.false_eq_true, if_false]
              have kept := keeps s (pageNo + k) holds later beyond found
              rcases fetched : httpFetchRange server ((pageNo + k - 1) * s.file.pageSize)
                s.file.pageSize s with ⟨rc, buf, s'⟩
              have kept' := kept rc buf s' fetched
              cases rc with
              | ok =>
                  obtain ⟨s'', inserted, holds''⟩ := kept'
                  obtain ⟨t, run, held⟩ := ih (k + 1) s'' (Nat.succ_pos k) holds''
                  refine ⟨t, ?_, held⟩
                  simp only [inserted]
                  exact run
              | ioerr | shortRead | corrupt | cantopen => exact ih (k + 1) s' (Nat.succ_pos k) kept'

/-- What no transfer and no change of the cache touches. -/
structure SameSettings (f f' : HttpFile) : Prop where
  haveMeta : f'.haveMeta = f.haveMeta
  pageSize : f'.pageSize = f.pageSize
  cacheCapacity : f'.cacheCapacity = f.cacheCapacity
  fallbackFull : f'.fallbackFull = f.fallbackFull
  prefetchPages : f'.prefetchPages = f.prefetchPages

theorem SameSettings.refl (f : HttpFile) : SameSettings f f := ⟨rfl, rfl, rfl, rfl, rfl⟩

theorem SameSettings.trans {f f' f'' : HttpFile} (first : SameSettings f f')
    (second : SameSettings f' f'') : SameSettings f f'' where
  haveMeta := second.haveMeta.trans first.haveMeta
  pageSize := second.pageSize.trans first.pageSize
  cacheCapacity := second.cacheCapacity.trans first.cacheCapacity
  fallbackFull := second.fallbackFull.trans first.fallbackFull
  prefetchPages := second.prefetchPages.trans first.prefetchPages

theorem SameSettings.received (s : HttpState) (body : Bytes) (data : Option Bytes)
    (contentLength : Int) (n : Nat) :
    SameSettings s.file (s.received body data contentLength n).file := ⟨rfl, rfl, rfl, rfl, rfl⟩

theorem Insertion.settings {entry : Int × Option Nat} {s s' : HttpState}
    (insertion : Insertion good entry s s') : SameSettings s.file s'.file := by
  obtain ⟨count, cells, file⟩ := insertion.file
  rw [file]
  exact ⟨rfl, rfl, rfl, rfl, rfl⟩

theorem mem_pages {f : HttpFile} (arrays : Arrays f) (pn : Int) :
    pn ∈ f.pages ↔ (f.index? pn).isSome := by
  rw [← Option.ne_none_iff_isSome, ne_eq, index?_none arrays, entries_pages arrays, not_not]
  rfl

theorem Insertion.pages {entry : Int × Option Nat} {s s' : HttpState}
    (insertion : Insertion good entry s s') (arrays : Arrays s.file) :
    s'.file.pages = Recent.insert s.file.cacheCapacity entry.1 s.file.pages := by
  rw [HttpFile.pages, ← entries_pages insertion.cached.arrays, insertion.entries,
    Recent.map_insert, entries_pages arrays]
  rfl

theorem Insertion.transfers {entry : Int × Option Nat} {s s' : HttpState}
    (insertion : Insertion good entry s s') : s'.transfers = s.transfers := by
  obtain ⟨count, cells, file⟩ := insertion.file
  rw [HttpState.transfers, file, insertion.requests]
  rfl

theorem Fetched.settings {off : Int} {len : Nat} {s s' : HttpState} {rc : Rc} {buf : Option Nat}
    (fetched : Fetched server off len s (rc, buf, s')) : SameSettings s.file s'.file := by
  cases fetched with
  | refused | range | whole => exact ⟨rfl, rfl, rfl, rfl, rfl⟩

/-- What a prefetch has made of the cache and of the buffers: these pages, all of them later
ones, have been inserted one after the other. -/
structure Prefetched (good : Int → Bytes → Prop) (pageNo : Int) (s s' : HttpState)
    (pages : List Int) : Prop where
  cached : Cached good s'
  settings : SameSettings s.file s'.file
  entries : ∃ inserted, inserted.map Prod.fst = pages ∧
    s'.file.entries = Recent.insertAll s.file.cacheCapacity inserted s.file.entries
  later : ∀ pn ∈ pages, pageNo < pn
  evicted : ∀ e ∈ s.file.entries, e ∈ s'.file.entries ∨ Gone s'.heap e.2
  gone : ∀ p, Gone s.heap p → Gone s'.heap p

theorem Prefetched.refl (pageNo : Int) {s : HttpState} (cached : Cached good s) :
    Prefetched good pageNo s s [] where
  cached := cached
  settings := .refl s.file
  entries := ⟨[], rfl, rfl⟩
  later _ member := by cases member
  evicted _ member := .inl member
  gone _ gone := gone

theorem Prefetched.cons {pageNo pn : Int} {s s' s'' : HttpState} {body : Bytes}
    {data : Option Bytes} {contentLength : Int} {n : Nat} {pages : List Int} (later : pageNo < pn)
    (insertion : Insertion good (pn, (alloc s.heap body).1) (s.received body data contentLength n)
      s') (rest : Prefetched good pageNo s' s'' pages) :
    Prefetched good pageNo s s'' (pn :: pages) where
  cached := rest.cached
  settings :=
    (SameSettings.received s body data contentLength n).trans
      (insertion.settings.trans rest.settings)
  entries := by
    obtain ⟨inserted, pages', entries⟩ := rest.entries
    refine ⟨(pn, (alloc s.heap body).1) :: inserted, by rw [List.map_cons, pages'], ?_⟩
    rw [entries, Recent.insertAll, insertion.entries, insertion.settings.cacheCapacity]
    rfl
  later pn' member := by
    rcases List.mem_cons.mp member with rfl | member
    · exact later
    · exact rest.later pn' member
  evicted e member := by
    rcases insertion.evicted e (List.mem_cons_of_mem _ member) with kept | gone
    · exact rest.evicted e kept
    · exact .inr (rest.gone e.2 gone)
  gone p gone := rest.gone p (insertion.gone p (gone_alloc s.heap body p gone))

theorem Prefetched.refused {pageNo : Int} {s s' : HttpState} {n : Nat} {pages : List Int}
    (rest : Prefetched good pageNo { s with requests := n } s' pages) :
    Prefetched good pageNo s s' pages :=
  ⟨rest.cached, rest.settings, rest.entries, rest.later, rest.evicted, rest.gone⟩

theorem Fetched.received {off : Int} {len : Nat} {s s' : HttpState} {rc : Rc} {buf : Option Nat}
    (fetched : Fetched server off len s (rc, buf, s')) :
    (rc ≠ .ok ∧ buf = none ∧ ∃ n, s' = { s with requests := n }) ∨
      (rc = .ok ∧ ∃ body data contentLength n, buf = (alloc s.heap body).1 ∧
        s' = s.received body data contentLength n) := by
  cases fetched with
  | refused rc n bad => exact .inl ⟨bad, rfl, n, rfl⟩
  | range body total n | whole _ body total _ _ file _ n =>
      exact .inr ⟨rfl, body, _, _, n, rfl, rfl⟩

/-- The prefetch inserts the pages of `prefetchedPages`. -/
theorem prefetchLoop_prefetched (pageNo : Int)
    (free : ∀ pn body, pageNo < pn → good pn body) (more : Nat) :
    ∀ k s, 0 < k → Cached good s → s.file.haveMeta = true →
      ∃ s', prefetchLoop server pageNo more k s = .ok s' ∧
        Prefetched good pageNo s s' (prefetchedPages server s.file.fallbackFull s.file.pageSize
          s.file.cacheCapacity pageNo more k s.file.pages s.transfers) := by
  induction more with
  | zero => exact fun k s _ cached _ => ⟨s, rfl, .refl pageNo cached⟩
  | succ more ih =>
      intro k s positive cached probed
      have later : pageNo < pageNo + k := by omega
      have brings := httpFetchRange_brings server ((pageNo + k - 1) * s.file.pageSize)
        s.file.pageSize s
      rw [prefetchLoop, prefetchedPages, brings]
      have beyondEnd : s.file.beyondEnd (pageNo + k) = true ↔ 0 < s.transfers.contentLength ∧
          s.transfers.contentLength ≤ (pageNo + k - 1) * s.file.pageSize := decide_eq_true_iff
      by_cases beyond : s.file.beyondEnd (pageNo + k) = true
      · rw [if_pos beyond, if_pos (beyondEnd.mp beyond)]
        exact ⟨s, rfl, .refl pageNo cached⟩
      rw [if_neg beyond, if_neg (fun yes => beyond (beyondEnd.mpr yes))]
      by_cases member : pageNo + k ∈ s.file.pages
      · rw [if_pos ((mem_pages cached.arrays _).mp member), if_pos member]
        exact ih (k + 1) s (Nat.succ_pos k) cached probed
      have notFound := fun found => member ((mem_pages cached.arrays _).mpr found)
      rw [if_neg notFound, if_neg member]
      have ended := httpFetchRange_fetched server ((pageNo + k - 1) * s.file.pageSize)
        s.file.pageSize s
      generalize httpFetchRange server ((pageNo + k - 1) * s.file.pageSize) s.file.pageSize
        s = fetch at ended
      obtain ⟨rc, buf, s'⟩ := fetch
      rcases ended.received with ⟨bad, rfl, n, rfl⟩ |
        ⟨rfl, body, data, contentLength, n, rfl, rfl⟩
      · obtain ⟨s', run, prefetched⟩ :=
          ih (k + 1) { s with requests := n } (Nat.succ_pos k) ⟨cached.arrays, cached.holds⟩ probed
        rw [decide_eq_false bad]
        refine ⟨s', ?_, prefetched.refused⟩
        cases rc with
        | ok => exact absurd rfl bad
        | ioerr | shortRead | corrupt | cantopen => exact run
      · have new := Option.not_isSome_iff_eq_none.mp notFound
        obtain ⟨s', inserted, insertion⟩ := received_inserted cached probed (pageNo + k)
          new body (free _ body later) data contentLength n
        obtain ⟨s'', run, prefetched⟩ := ih (k + 1) s' (Nat.succ_pos k) insertion.cached
          (insertion.settings.haveMeta.trans probed)
        rw [insertion.settings.fallbackFull, insertion.settings.pageSize,
          insertion.settings.cacheCapacity, insertion.transfers,
          insertion.pages (cached.arrays.received _ _ _ _)] at prefetched
        simp only [inserted]
        exact ⟨s'', run, prefetched.cons later insertion⟩

theorem prefetchedPages_length (fallbackFull : Bool) (pageSize cap : Nat) (pageNo : Int)
    (more : Nat) : ∀ k cached t,
      (prefetchedPages server fallbackFull pageSize cap pageNo more k cached t).length ≤ more := by
  induction more with
  | zero => exact fun _ _ _ => Nat.le_refl 0
  | succ more ih =>
      intro k cached t
      rw [prefetchedPages]
      split
      · exact Nat.zero_le _
      split
      · exact Nat.le_succ_of_le (ih _ _ _)
      split
      · exact Nat.succ_le_succ (ih _ _ _)
      · exact Nat.le_succ_of_le (ih _ _ _)

end RSQLite
