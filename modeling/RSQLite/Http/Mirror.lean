import RSQLite.Http.Alive

/-!
A server with a fixed file that delivers every page of it, the last one as far as the file
goes. The cache then holds pages of the file and nothing else.
-/
namespace RSQLite

open Buffers

def filePageSize (F : Bytes) : Nat := headerPageSize (F.take 32)

def pageOf (F : Bytes) (pageNo : Int) : Bytes :=
  (F.drop ((pageNo - 1) * filePageSize F).toNat).take (filePageSize F)

/-- The page begins before the end of the file. -/
def InFile (F : Bytes) (pageNo : Int) : Prop :=
  0 < pageNo ∧ (pageNo - 1) * filePageSize F < F.length

/-- A page of the file, with its bytes. -/
def IsPage (F : Bytes) (pageNo : Int) (buf : Bytes) : Prop :=
  InFile F pageNo ∧ buf = pageOf F pageNo

/-- What the transfers of a file bring in range mode. -/
structure Delivers (server : Server) (F : Bytes) : Prop where
  nonempty : 0 < F.length
  length : ∀ n, headLength (server.head n) = F.length
  header : ∀ n, ∃ code total, code < 400 ∧
    perform (server.range n 0 31) = .answered code (F.take 32) total
  page : ∀ n pageNo, InFile F pageNo → ∃ total,
    perform (server.range n ((pageNo - 1) * filePageSize F)
      ((pageNo - 1) * filePageSize F + filePageSize F - 1)) = .answered 206 (pageOf F pageNo) total

variable {server : Server} {env : Environment} {F : Bytes}

/-- In range mode: the length is known, and what is cached are pages of the file. -/
structure Mirrors (F : Bytes) (s : HttpState) : Prop where
  mode : RangeMode s
  length : s.file.contentLength = F.length
  pageSize : s.file.pageSize = filePageSize F
  cached : Cached (IsPage F) s

/-- Nothing has been requested yet. -/
structure Unprobed (s : HttpState) : Prop where
  unprobed : s.file.haveMeta = false
  undownloaded : s.file.data = none

theorem unprobed_open (zName : Option String) (f : HttpFile) (opens : httpOpen env zName = .ok f) :
    Unprobed ⟨f, [], 0⟩ := by
  cases zName with
  | none => cases opens
  | some zName =>
      simp only [httpOpen] at opens
      split at opens
      · cases opens
      · cases opens
        exact ⟨rfl, rfl⟩

theorem probe_mirrors (env : Environment) (delivers : Delivers server F) {s : HttpState}
    (fresh : Unprobed s) :
    ∃ s', httpProbeMeta server env s = (.ok, s') ∧ Mirrors F s' ∧
      s'.file.prefetchPages = s.file.prefetchPages ∧
      s'.file.cacheCapacity = env.capacity (filePageSize F) ∧ s'.file.entries = [] := by
  obtain ⟨code, total, accepted, answer⟩ := delivers.header (s.requests + 1)
  refine ⟨{ s with
    file := s.file.probed env (headLength (server.head s.requests)) (F.take 32)
    requests := s.requests + 2 }, ?_, ⟨⟨rfl, fresh.undownloaded⟩, delivers.length _, rfl,
      probed_cached env _ s _ _ _⟩, rfl, rfl, rfl⟩
  rw [httpProbeMeta, fresh.unprobed]
  simp only [Bool.false_eq_true, if_false, answer, if_neg (Nat.not_le.mpr accepted)]

theorem probe_mirrored {s : HttpState} (mirrors : Mirrors F s) :
    httpProbeMeta server env s = (.ok, s) := by
  rw [httpProbeMeta, mirrors.mode.probed]
  rfl

/-- A page of the file that is received is inserted. -/
theorem page_inserted (delivers : Delivers server F) {s : HttpState} (mirrors : Mirrors F s)
    (pageNo : Int) (inFile : InFile F pageNo) (new : s.file.index? pageNo = none) :
    ∃ s', httpFetchRange server ((pageNo - 1) * s.file.pageSize) s.file.pageSize s =
        (.ok, (alloc s.heap (pageOf F pageNo)).1,
          s.received (pageOf F pageNo) none F.length (s.requests + 1)) ∧
      insertFront pageNo (alloc s.heap (pageOf F pageNo)).1
        (s.received (pageOf F pageNo) none F.length (s.requests + 1)) = .ok s' ∧
      Insertion (IsPage F) (pageNo, (alloc s.heap (pageOf F pageNo)).1)
        (s.received (pageOf F pageNo) none F.length (s.requests + 1)) s' ∧ Mirrors F s' := by
  obtain ⟨total, answer⟩ := delivers.page s.requests pageNo inFile
  have lengthFrom : s.file.lengthFrom total = F.length := by
    rw [HttpFile.lengthFrom, mirrors.length]
    exact if_neg (fun both => absurd both.2 (by omega))
  have fetched := httpFetchRange_206 server ((pageNo - 1) * filePageSize F) (filePageSize F) s _
    total answer
  rw [mirrors.mode.undownloaded, lengthFrom] at fetched
  obtain ⟨s', inserted, insertion⟩ := received_inserted mirrors.cached mirrors.mode.probed pageNo
    new (pageOf F pageNo) ⟨inFile, rfl⟩ none F.length (s.requests + 1)
  refine ⟨s', ?_, inserted, insertion, ?_⟩
  · rw [mirrors.pageSize]
    exact fetched
  · obtain ⟨count, cells, file⟩ := insertion.file
    refine ⟨⟨insertion.settings.haveMeta.trans mirrors.mode.probed, ?_⟩, ?_,
      insertion.settings.pageSize.trans mirrors.pageSize, insertion.cached⟩
    · rw [file]
      rfl
    · rw [file]
      rfl

theorem inFile_of_beyondEnd (delivers : Delivers server F) {s : HttpState} (mirrors : Mirrors F s)
    (pageNo : Int) (positive : 0 < pageNo) :
    s.file.beyondEnd pageNo = false ↔ InFile F pageNo := by
  have nonempty := delivers.nonempty
  rw [HttpFile.beyondEnd, decide_eq_false_iff_not, mirrors.length, mirrors.pageSize, InFile]
  omega

theorem prefetch_mirrors (delivers : Delivers server F) (pageNo : Int) (positive : 0 < pageNo)
    (more k : Nat) (later : 0 < k) {s : HttpState} (mirrors : Mirrors F s) :
    ∃ s', prefetchLoop server pageNo more k s = .ok s' ∧ Mirrors F s' := by
  refine prefetchLoop_keeps server (Mirrors F) pageNo ?_ more k s later mirrors
  intro s pn mirrors after inside new rc buf s' fetched
  have inFile := (inFile_of_beyondEnd delivers mirrors pn (Int.lt_trans positive after)).mp inside
  obtain ⟨s'', fetched', inserted, _, mirrors'⟩ := page_inserted delivers mirrors pn inFile new
  rw [fetched'] at fetched
  cases fetched
  exact ⟨s'', inserted, mirrors'⟩

/-- A page of the file is returned from the cache. Unless as many pages have been prefetched
as the cache has room for, its buffer holds the bytes of the page; else it is freed. -/
structure Returned (F : Bytes) (pageNo : Int) (p : Option Nat) (s s' : HttpState)
    (kept : Prop) : Prop where
  mirrors : Mirrors F s'
  settings : SameSettings s.file s'.file
  held : kept → contents s'.heap p = some (pageOf F pageNo)
  freed : ¬ kept → Gone s'.heap p

theorem page_returned (env : Environment) (delivers : Delivers server F) {s : HttpState}
    (mirrors : Mirrors F s)
    (pageNo : Int) (inFile : InFile F pageNo) :
    ∃ p s', httpGetPage server env pageNo s = .ok (.ok, some (.buffer p), s') ∧
      Returned F pageNo p s s' ((s.file.index? pageNo).isSome ∨
        prefetchCount server pageNo s < s.file.cacheCapacity) := by
  rw [getPage_rangeMode server env mirrors.mode pageNo inFile.1]
  cases found : s.file.index? pageNo with
  | some i =>
      obtain ⟨p, cells, run, _, cached, entries⟩ := hitPage_ok mirrors.cached pageNo i found
      refine ⟨p, _, run, ⟨⟨mirrors.mode.probed, mirrors.mode.undownloaded⟩, mirrors.length,
        mirrors.pageSize, cached⟩, ⟨rfl, rfl, rfl, rfl, rfl⟩, fun _ => ?_,
        fun lost => absurd (.inl rfl) lost⟩
      have member : (pageNo, p) ∈
          (s.file.withCache s.file.cacheCount cells).entries := entries ▸ List.mem_cons_self
      obtain ⟨buf, held, isPage⟩ := cached.holds.held _ member
      rw [isPage.2] at held
      exact held
  | none =>
      obtain ⟨s₁, fetched, inserted, insertion, mirrors₁⟩ := page_inserted delivers mirrors pageNo
        inFile found
      obtain ⟨s₂, run, mirrors₂⟩ := prefetch_mirrors delivers pageNo inFile.1
        s₁.file.prefetchPages.toNat 1 Nat.one_pos mirrors₁
      rcases missPage_ends server mirrors.cached mirrors.mode.probed pageNo found with
        ⟨rc, n, bad, fetched', _⟩ | ⟨body, data, contentLength, n, s', fetched', run', obtained⟩
      · rw [fetched] at fetched'
        exact absurd (Prod.mk.inj fetched').1.symm bad
      · have same : missPage server pageNo s =
            .ok (.ok, some (.buffer (alloc s.heap (pageOf F pageNo)).1), s₂) := by
          rw [missPage, fetched]
          simp only [inserted]
          change (prefetchLoop server pageNo s₁.file.prefetchPages.toNat 1 s₁ >>= _) = _
          rw [run]
          rfl
        have result := Prod.mk.inj (Except.ok.inj (same.symm.trans run'))
        have result' := Prod.mk.inj result.2
        have pointer := PagePointer.buffer.inj (Option.some.inj result'.1)
        obtain rfl := result'.2
        refine ⟨_, s₂, same, mirrors₂, obtained.settings, fun kept => ?_, fun lost => ?_⟩
        · have alive := obtained.alive.mpr (kept.resolve_left Bool.false_ne_true)
          rw [← pointer] at alive
          obtain ⟨buf, held, isPage⟩ := mirrors₂.cached.holds.held _ alive
          rw [isPage.2] at held
          exact held
        · rw [pointer]
          exact obtained.gone (fun alive => lost (.inr (obtained.alive.mp alive)))

end RSQLite
