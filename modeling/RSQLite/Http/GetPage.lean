import RSQLite.Http.Prefetch

/-!
What `http_get_page()` does to a cache whose entries have buffers of their own, whatever the
server answers.
-/
namespace RSQLite

open Buffers

variable (server : Server) (env : Environment)

theorem headerPageSize_valid (header : Bytes) :
    512 ≤ headerPageSize header ∧ headerPageSize header ≤ 65536 ∧
      headerPageSize header &&& (headerPageSize header - 1) = 0 := by
  rw [headerPageSize]
  split
  · simp only
    split
    · decide
    · split
      · next valid => exact valid
      · decide
  · decide

theorem headerPageSize_pos (header : Bytes) : 0 < headerPageSize header :=
  Nat.lt_of_lt_of_le (by decide) (headerPageSize_valid header).1

theorem configuredCapacity_room (cacheMb : Int64) (pageSize : Nat) :
    2 ≤ configuredCapacity cacheMb pageSize := by
  rw [configuredCapacity]
  split
  · exact Nat.le_refl 2
  · split
    · decide
    · omega

theorem probed_cached (good : Int → Bytes → Prop) (s : HttpState) (contentLength : Int)
    (header : Bytes) (n : Nat) :
    Cached good { s with file := s.file.probed env contentLength header, requests := n } where
  arrays :=
    ⟨List.length_replicate, List.length_replicate, Nat.zero_le _,
      fun _ => configuredCapacity_room _ _⟩
  holds := holds_nil

/-- A probe leaves a file as it is that has been probed before; it refuses, or empties the
cache. -/
inductive ProbeEnds (s : HttpState) : Rc × HttpState → Prop
  | before (probed : s.file.haveMeta = true) : ProbeEnds s (.ok, s)
  | refused (unprobed : s.file.haveMeta = false) (contentLength : Int) (n : Nat) :
      ProbeEnds s (.cantopen, { s with file.contentLength := contentLength, requests := n })
  | now (unprobed : s.file.haveMeta = false) (code : Nat) (header : Bytes) (total : Int)
      (answer : server.range (s.requests + 1) 0 31 = .answered code header total) :
      ProbeEnds s (.ok,
        { s with
          file := s.file.probed env (headLength (server.head s.requests)) header
          requests := s.requests + 2 })

theorem httpProbeMeta_ends (s : HttpState) :
    ProbeEnds server env s (httpProbeMeta server env s) := by
  rw [httpProbeMeta]
  split
  · next probed => exact .before probed
  · next unprobed =>
      have unprobed' : s.file.haveMeta = false := Bool.eq_false_of_not_eq_true unprobed
      simp only
      cases performed : perform (server.range (s.requests + 1) 0 31) with
      | failed => exact .refused unprobed' _ _
      | answered code body total =>
          simp only
          split
          · exact .refused unprobed' _ _
          · exact .now unprobed' code body total (perform_answered _ _ _ _ performed)

/-- The number of pages that are inserted after a page that is not cached, by the numbers of the
cached pages and the answers. -/
def prefetchCount (pageNo : Int) (s : HttpState) : Nat :=
  let pageSize := s.file.pageSize
  match s.transfers.brings server s.file.fallbackFull ((pageNo - 1) * pageSize) pageSize with
  | (true, t) => (prefetchedPages server s.file.fallbackFull pageSize s.file.cacheCapacity pageNo
      s.file.prefetchPages.toNat 1 (Recent.insert s.file.cacheCapacity pageNo s.file.pages) t).length
  | (false, _) => 0

theorem prefetchCount_le (pageNo : Int) (s : HttpState) :
    prefetchCount server pageNo s ≤ s.file.prefetchPages.toNat := by
  rw [prefetchCount]
  split
  · exact prefetchedPages_length server _ _ _ pageNo _ _ _ _
  · exact Nat.zero_le _

/-- A page that has been fetched with this body. It is still the entry for its number exactly
if fewer pages have been inserted after it than there is room for; else its buffer has been
freed. -/
structure Obtained (pageNo : Int) (s : HttpState) (body : Bytes) (s' : HttpState) : Prop where
  settings : SameSettings s.file s'.file
  cached : Cached (fun n buf => n = pageNo → buf = body) s'
  alive : (pageNo, (alloc s.heap body).1) ∈ s'.file.entries ↔
    prefetchCount server pageNo s < s.file.cacheCapacity
  gone : (pageNo, (alloc s.heap body).1) ∉ s'.file.entries → Gone s'.heap (alloc s.heap body).1

/-- A page that is not cached is refused, or obtained. -/
theorem missPage_ends {good : Int → Bytes → Prop} {s : HttpState} (cached : Cached good s)
    (probed : s.file.haveMeta = true) (pageNo : Int) (new : s.file.index? pageNo = none) :
    (∃ rc n, rc ≠ .ok ∧ httpFetchRange server ((pageNo - 1) * s.file.pageSize) s.file.pageSize s =
        (rc, none, { s with requests := n }) ∧
        missPage server pageNo s = .ok (rc, none, { s with requests := n })) ∨
      ∃ body data contentLength n s',
        httpFetchRange server ((pageNo - 1) * s.file.pageSize) s.file.pageSize s =
          (.ok, (alloc s.heap body).1, s.received body data contentLength n) ∧
        missPage server pageNo s = .ok (.ok, some (.buffer (alloc s.heap body).1), s') ∧
        Obtained server pageNo s body s' := by
  have ended := httpFetchRange_fetched server ((pageNo - 1) * s.file.pageSize) s.file.pageSize s
  rw [missPage]
  cases fetch : httpFetchRange server ((pageNo - 1) * s.file.pageSize) s.file.pageSize s with
  | mk rc r =>
      obtain ⟨buf, s'⟩ := r
      rw [fetch] at ended
      rcases ended.received with ⟨bad, rfl, n, rfl⟩ | ⟨rfl, body, data, contentLength, n, rfl, rfl⟩
      · refine .inl ⟨rc, n, bad, rfl, ?_⟩
        cases rc with
        | ok => exact absurd rfl bad
        | ioerr | shortRead | corrupt | cantopen => rfl
      · have absent := (index?_none cached.arrays pageNo).mp new
        have cached' : Cached (fun n buf => n = pageNo → buf = body) s :=
          cached.weaken _ (fun n member _ _ same => absurd (same ▸ member) absent)
        obtain ⟨s₁, inserted, insertion⟩ := received_inserted cached' probed pageNo new body
          (fun _ => rfl) data contentLength n
        obtain ⟨s₂, run, prefetched⟩ := prefetchLoop_prefetched server pageNo
          (fun pn buf later same => absurd same (by omega)) s₁.file.prefetchPages.toNat 1 s₁
          Nat.one_pos insertion.cached (insertion.settings.haveMeta.trans probed)
        have settings : SameSettings s.file s₁.file :=
          (SameSettings.received s body data contentLength n).trans insertion.settings
        -- the page is the first entry when the prefetch begins
        have room : s.file.cacheCapacity = s.file.cacheCapacity - 1 + 1 := by
          have := cached.arrays.room probed
          omega
        have entries : s₁.file.entries = (pageNo, (alloc s.heap body).1) ::
            s.file.entries.take (s.file.cacheCapacity - 1) := by
          rw [insertion.entries, Recent.insert]
          change List.take s.file.cacheCapacity _ = _
          rw [room, List.take_succ_cons, Nat.add_sub_cancel]
          rfl
        have brings := httpFetchRange_brings server ((pageNo - 1) * s.file.pageSize)
          s.file.pageSize s
        rw [fetch] at brings
        have count : prefetchCount server pageNo s =
            (prefetchedPages server s₁.file.fallbackFull s₁.file.pageSize s₁.file.cacheCapacity
              pageNo s₁.file.prefetchPages.toNat 1 s₁.file.pages s₁.transfers).length := by
          rw [prefetchCount, brings, settings.fallbackFull, settings.pageSize,
            settings.cacheCapacity, settings.prefetchPages, insertion.transfers,
            insertion.pages (cached.arrays.received _ _ _ _)]
          rfl
        refine .inr ⟨body, data, contentLength, n, s₂, rfl, ?_, settings.trans prefetched.settings,
          prefetched.cached, ?_, fun lost => ?_⟩
        · simp only [inserted]
          change (prefetchLoop server pageNo s₁.file.prefetchPages.toNat 1 s₁ >>= _) = _
          rw [run]
          rfl
        · obtain ⟨inserted', pages, entries'⟩ := prefetched.entries
          rw [entries', entries, settings.cacheCapacity, count, ← pages, List.length_map]
          refine Recent.mem_insertAll_iff _ _ _ _ ?_ (fun again => ?_)
          · rw [List.length_cons, List.length_take]
            omega
          · have later := prefetched.later pageNo (pages ▸ List.mem_map_of_mem again)
            exact absurd later (Int.lt_irrefl pageNo)
        · rcases prefetched.evicted _ (entries ▸ List.mem_cons_self) with kept | gone
          · exact absurd kept lost
          · exact gone

theorem httpFetchRange_206 (off : Int) (len : Nat) (s : HttpState) (body : Bytes) (total : Int)
    (answer : perform (server.range s.requests off (off + len - 1)) = .answered 206 body total) :
    httpFetchRange server off len s = (.ok, (alloc s.heap body).1,
      s.received body s.file.data (s.file.lengthFrom total) (s.requests + 1)) := by
  rw [httpFetchRange, answer]
  rfl

theorem brings_206 (fallbackFull : Bool) (off : Int) (len : Nat) (t : Transfers) (body : Bytes)
    (total : Int) (known : ¬ (0 < total ∧ t.contentLength < 0))
    (answer : perform (server.range t.requests off (off + len - 1)) = .answered 206 body total) :
    t.brings server fallbackFull off len = (true, { t with requests := t.requests + 1 }) := by
  rw [Transfers.brings, answer]
  simp only [if_neg known]
  rfl

/-- The prefetch inserts every page that is delivered, if none of them is cached. -/
theorem prefetchedPages_ge (fallbackFull : Bool) (ps cap : Nat) (pageNo : Int)
    (contentLength : Int) (m : Nat)
    (inside : ∀ pn, pn ≤ pageNo + m → ¬ (0 < contentLength ∧ contentLength ≤ (pn - 1) * ps))
    (delivers : ∀ n pn, pageNo < pn → pn ≤ pageNo + m → ∃ body total,
      perform (server.range n ((pn - 1) * ps) ((pn - 1) * ps + ps - 1)) =
        .answered 206 body total ∧ ¬ (0 < total ∧ contentLength < 0)) (more : Nat) :
    ∀ (k : Nat) (cached : List Int) (t : Transfers), 0 < k → t.contentLength = contentLength →
      (∀ pn, pageNo + k ≤ pn → pn ∉ cached) →
      min more (m + 1 - k) ≤
        (prefetchedPages server fallbackFull ps cap pageNo more k cached t).length := by
  induction more with
  | zero => exact fun k _ _ _ _ _ => by rw [Nat.zero_min]; exact Nat.zero_le _
  | succ more ih =>
      intro k cached t positive length new
      rcases Nat.lt_or_ge m k with past | within
      · rw [Nat.sub_eq_zero_of_le past, Nat.min_zero]
        exact Nat.zero_le _
      · obtain ⟨body, total, answer, known⟩ :=
          delivers t.requests (pageNo + k) (by omega) (by omega)
        rw [← length] at known
        rw [prefetchedPages, length, if_neg (inside (pageNo + k) (by omega)),
          if_neg (new (pageNo + k) (Int.le_refl _)),
          brings_206 server fallbackFull _ ps t body total known answer]
        simp only [List.length_cons]
        have rest := ih (k + 1) (Recent.insert cap (pageNo + k) cached)
          { t with requests := t.requests + 1 } (Nat.succ_pos k) length (fun pn later member => by
            rcases List.mem_cons.mp (List.mem_of_mem_take member) with same | old
            · omega
            · exact new pn (by omega) old)
        omega

theorem prefetchCount_ge {s : HttpState} (pageNo : Int) (m : Nat)
    (inside : ∀ pn, pn ≤ pageNo + m →
      ¬ (0 < s.file.contentLength ∧ s.file.contentLength ≤ (pn - 1) * s.file.pageSize))
    (delivers : ∀ n pn, pageNo ≤ pn → pn ≤ pageNo + m → ∃ body total,
      perform (server.range n ((pn - 1) * s.file.pageSize)
        ((pn - 1) * s.file.pageSize + s.file.pageSize - 1)) = .answered 206 body total ∧
      ¬ (0 < total ∧ s.file.contentLength < 0))
    (new : ∀ pn, pageNo ≤ pn → pn ∉ s.file.pages) :
    min s.file.prefetchPages.toNat m ≤ prefetchCount server pageNo s := by
  obtain ⟨body, total, answer, known⟩ := delivers s.requests pageNo (Int.le_refl _) (by omega)
  have pages := prefetchedPages_ge server s.file.fallbackFull s.file.pageSize
    s.file.cacheCapacity pageNo s.file.contentLength m inside
    (fun n pn later => delivers n pn (Int.le_of_lt later)) s.file.prefetchPages.toNat 1
    (Recent.insert s.file.cacheCapacity pageNo s.file.pages)
    { s.transfers with requests := s.transfers.requests + 1 } Nat.one_pos rfl
    (fun pn later member => by
      rcases List.mem_cons.mp (List.mem_of_mem_take member) with same | old
      · omega
      · exact new pn (by omega) old)
  rw [prefetchCount, brings_206 server s.file.fallbackFull _ _ s.transfers body total known answer]
  rwa [Nat.add_sub_cancel] at pages

end RSQLite
