import RSQLite.Http.Read

/-!
The buffer that `http_get_page()` hands out. The page is inserted before those that are
prefetched after it: as many of them as the cache has room for push it out, and its buffer
is freed before the caller reads it.
-/
namespace RSQLite

open Buffers

variable {server : Server} {env : Environment}

def Environment.prefetch (env : Environment) : Int :=
  (httpEnvInt64 env.prefetchPages 0).toInt32.toInt

def Environment.capacity (env : Environment) (pageSize : Nat) : Nat :=
  configuredCapacity (httpEnvInt64 env.cacheMb 4) pageSize

/-- What holds of every state in which a file can be. -/
structure Ready (env : Environment) (s : HttpState) : Prop where
  cached : Cached (fun _ _ => True) s
  unprobed : s.file.haveMeta = false → s.file.data = none
  prefetch : s.file.prefetchPages = env.prefetch
  fallback : s.file.fallbackFull = httpEnvBool env.fallbackFulldl true
  capacity : s.file.haveMeta = true → s.file.cacheCapacity = env.capacity s.file.pageSize

theorem ready_open (zName : Option String) (f : HttpFile) (opens : httpOpen env zName = .ok f) :
    Ready env ⟨f, [], 0⟩ := by
  cases zName with
  | none => cases opens
  | some zName =>
      simp only [httpOpen] at opens
      split at opens
      · cases opens
      · cases opens
        exact ⟨⟨⟨rfl, rfl, Nat.le_refl 0, fun probed => by cases probed⟩, holds_nil⟩, fun _ => rfl,
          rfl, rfl, fun probed => by cases probed⟩

theorem ready_probe (server : Server) {s : HttpState} (ready : Ready env s) :
    Ready env (httpProbeMeta server env s).2 := by
  have ends := httpProbeMeta_ends server env s
  generalize httpProbeMeta server env s = probed at ends
  cases ends with
  | before probed => exact ready
  | refused unprobed contentLength n =>
      exact ⟨⟨⟨ready.cached.arrays.pageNos, ready.cached.arrays.data, ready.cached.arrays.count,
        ready.cached.arrays.room⟩, ready.cached.holds⟩, ready.unprobed, ready.prefetch,
        ready.fallback, ready.capacity⟩
  | now unprobed code header total answer =>
      exact ⟨probed_cached env _ s _ header _, fun _ => ready.unprobed unprobed, ready.prefetch,
        ready.fallback, fun _ => rfl⟩

/-- A file that has been probed and not downloaded. -/
structure RangeMode (s : HttpState) : Prop where
  probed : s.file.haveMeta = true
  undownloaded : s.file.data = none

theorem getPage_probed (server : Server) (env : Environment) {s s' : HttpState}
    (undownloaded : s.file.data = none) (probe : httpProbeMeta server env s = (.ok, s'))
    (pageNo : Int) (positive : 0 < pageNo) :
    httpGetPage server env pageNo s =
      match s'.file.index? pageNo with
      | some i => hitPage pageNo i s'
      | none => missPage server pageNo s' := by
  have page := Int.not_le.mpr positive
  cases found : s'.file.index? pageNo with
  | some i => simp only [httpGetPage, if_neg page, undownloaded, probe, found]
  | none => simp only [httpGetPage, if_neg page, undownloaded, probe, found]

theorem probe_again (server : Server) (env : Environment) {s : HttpState} (mode : RangeMode s) :
    httpProbeMeta server env s = (.ok, s) := by
  rw [httpProbeMeta, mode.probed, if_pos rfl]

theorem getPage_rangeMode (server : Server) (env : Environment) {s : HttpState} (mode : RangeMode s)
    (pageNo : Int) (positive : 0 < pageNo) :
    httpGetPage server env pageNo s =
      match s.file.index? pageNo with
      | some i => hitPage pageNo i s
      | none => missPage server pageNo s :=
  getPage_probed server env mode.undownloaded (probe_again server env mode) pageNo positive

theorem getPage_probe (server : Server) (env : Environment) {s s' : HttpState} (pageNo : Int)
    (undownloaded : s.file.data = none) (probe : httpProbeMeta server env s = (.ok, s'))
    (mode : RangeMode s') :
    httpGetPage server env pageNo s = if pageNo ≤ 0 then .ok (.corrupt, none, s)
      else httpGetPage server env pageNo s' := by
  split
  · next early => rw [httpGetPage, if_pos early]
  · next late =>
      have positive := Int.lt_of_not_ge late
      rw [getPage_probed server env undownloaded probe pageNo positive,
        getPage_rangeMode server env mode pageNo positive]

theorem probe_rangeMode {s s' : HttpState} (undownloaded : s.file.data = none)
    (probe : httpProbeMeta server env s = (.ok, s')) : RangeMode s' := by
  have ends := httpProbeMeta_ends server env s
  rw [probe] at ends
  cases ends with
  | before probed => exact ⟨probed, undownloaded⟩
  | now unprobed code header total answer => exact ⟨rfl, undownloaded⟩

theorem Ready.settled {s s' : HttpState} (ready : Ready env s) (probed : s.file.haveMeta = true)
    (settings : SameSettings s.file s'.file) (cached : Cached (fun _ _ => True) s') :
    Ready env s' where
  cached := cached
  unprobed unprobed := by
    rw [settings.haveMeta, probed] at unprobed
    cases unprobed
  prefetch := settings.prefetchPages.trans ready.prefetch
  fallback := settings.fallbackFull.trans ready.fallback
  capacity _ := by
    rw [settings.cacheCapacity, settings.pageSize]
    exact ready.capacity probed

theorem hit_ready {s : HttpState} (ready : Ready env s) (probed : s.file.haveMeta = true)
    (pageNo : Int) (i : Nat) (found : s.file.index? pageNo = some i) :
    ∃ p s', hitPage pageNo i s = .ok (.ok, some (.buffer p), s') ∧ Ready env s' ∧
      (pageNo, p) ∈ s'.file.entries := by
  obtain ⟨p, cells, run, _, cached, entries⟩ := hitPage_ok ready.cached pageNo i found
  refine ⟨p, _, run, ready.settled probed ⟨rfl, rfl, rfl, rfl, rfl⟩ cached, ?_⟩
  rw [entries]
  exact List.mem_cons_self

theorem getPage_ready (server : Server) (env : Environment) {s : HttpState} (ready : Ready env s)
    (pageNo : Int) :
    ∃ rc p s', httpGetPage server env pageNo s = .ok (rc, p, s') ∧ Ready env s' := by
  have inRange : ∀ s, Ready env s → RangeMode s → 0 < pageNo →
      ∃ rc p s', httpGetPage server env pageNo s = .ok (rc, p, s') ∧ Ready env s' := by
    intro s ready mode positive
    rw [getPage_rangeMode server env mode pageNo positive]
    cases found : s.file.index? pageNo with
    | some i =>
        obtain ⟨p, s', run, ready', _⟩ := hit_ready ready mode.probed pageNo i found
        exact ⟨_, _, s', run, ready'⟩
    | none =>
        rcases missPage_ends server ready.cached mode.probed pageNo found with
          ⟨rc, n, _, _, run⟩ | ⟨body, data, contentLength, n, s', _, run, obtained⟩
        · exact ⟨_, _, _, run, ⟨⟨ready.cached.arrays, ready.cached.holds⟩, ready.unprobed,
            ready.prefetch, ready.fallback, ready.capacity⟩⟩
        · exact ⟨_, _, s', run, ready.settled mode.probed obtained.settings
            (obtained.cached.weaken _ (fun _ _ _ _ => trivial))⟩
  by_cases positive : pageNo ≤ 0
  · exact ⟨.corrupt, none, s, by rw [httpGetPage, if_pos positive], ready⟩
  · cases data : s.file.data with
    | some d =>
        rw [httpGetPage, if_neg positive, data]
        simp only
        split
        · exact ⟨_, _, s, rfl, ready⟩
        · exact ⟨_, _, s, rfl, ready⟩
    | none =>
        have ready' := ready_probe server ready
        cases probe : httpProbeMeta server env s with
        | mk rc s' =>
            rw [probe] at ready'
            cases rc with
            | ok =>
                have mode := probe_rangeMode data probe
                rw [getPage_probe server env pageNo data probe mode, if_neg positive]
                exact inRange s' ready' mode (Int.lt_of_not_ge positive)
            | ioerr | shortRead | corrupt | cantopen =>
                rw [httpGetPage, if_neg positive, data, probe]
                exact ⟨_, _, s', rfl, ready'⟩

section Reads

variable (I : HttpState → Prop)

theorem readLoop_keeps (page : ∀ pageNo s rc p s', I s →
      httpGetPage server env pageNo s = .ok (rc, p, s') → I s') (ps start fin more : Nat) :
    ∀ pn pos out s rc out' s', I s →
      readLoop server env ps start fin more pn pos out s = .ok (rc, out', s') → I s' := by
  induction more with
  | zero =>
      intro pn pos out s rc out' s' holds run
      cases run
      exact holds
  | succ more ih =>
      intro pn pos out s rc out' s' holds run
      rw [readLoop] at run
      cases requested : httpGetPage server env pn s with
      | error f =>
          rw [requested] at run
          cases run
      | ok r =>
          obtain ⟨rc₁, p, s₁⟩ := r
          have holds₁ := page pn s rc₁ p s₁ holds requested
          rw [requested] at run
          simp only [bind, Except.bind] at run
          split at run
          · cases run
          · next pPage =>
              split at run
              · split at run
                · cases run
                · exact ih _ _ _ s₁ rc out' s' holds₁ run
              · exact ih _ _ _ s₁ rc out' s' holds₁ run
          · cases run
            exact holds₁

/-- What the probe and the requests for pages keep, a read keeps. -/
theorem read_keeps (probe : ∀ s, I s → I (httpProbeMeta server env s).2)
    (page : ∀ pageNo s rc p s', I s → httpGetPage server env pageNo s = .ok (rc, p, s') → I s')
    (iAmt iOfst : Nat) (zBuf : Bytes) (s s' : HttpState) (rc : Rc) (out : Bytes) (holds : I s)
    (read : httpRead server env iAmt iOfst zBuf s = .ok (rc, out, s')) : I s' := by
  rw [httpRead] at read
  split at read
  · cases read
    exact holds
  · have probed := probe s holds
    split at read
    · next s₁ probe =>
        rw [probe] at probed
        simp only [bind, Except.bind] at read
        cases loop : readLoop server env s₁.file.pageSize iOfst (iOfst + iAmt)
            ((iOfst + iAmt - 1) / s₁.file.pageSize + 1 + 1 - (iOfst / s₁.file.pageSize + 1))
            (iOfst / s₁.file.pageSize + 1) iOfst zBuf s₁ with
        | error f =>
            rw [loop] at read
            cases read
        | ok r =>
            obtain ⟨rc₁, out₁, s₂⟩ := r
            have holds₂ := readLoop_keeps I page _ _ _ _ _ _ _ _ _ _ _ probed loop
            rw [loop] at read
            simp only at read
            split at read
            · cases read
              exact holds₂
            · cases read
              exact holds₂
    · next rc₁ s₁ _ probe =>
        rw [probe] at probed
        cases read
        exact probed

/-- A property of a file that has just been opened holds of every state reached from it. -/
theorem httpReachable_keeps (opened : ∀ zName f, httpOpen env zName = .ok f → I ⟨f, [], 0⟩)
    (probe : ∀ s, I s → I (httpProbeMeta server env s).2)
    (page : ∀ pageNo s rc p s', I s → httpGetPage server env pageNo s = .ok (rc, p, s') → I s')
    (s : HttpState) (reachable : HttpReachable server env s) : I s := by
  induction reachable with
  | opened zName f opens => exact opened zName f opens
  | page pageNo rc p s s' _ requested ih => exact page pageNo s rc p s' ih requested
  | read iAmt iOfst zBuf out rc s s' _ read ih =>
      exact read_keeps I probe page iAmt iOfst zBuf s s' rc out ih read

theorem reachable_ready (s : HttpState) (reachable : HttpReachable server env s) : Ready env s := by
  refine httpReachable_keeps (Ready env) ready_open (fun _ => ready_probe server) ?_ s reachable
  intro pageNo s rc p s' ready requested
  obtain ⟨rc', p', s'', run, ready'⟩ := getPage_ready server env ready pageNo
  cases requested.symm.trans run
  exact ready'

end Reads

/-- Whatever the server answers, and in whatever state, a page that is returned from the cache
is the entry for its number. -/
def StaysAlive (env : Environment) (pageSize : Nat) : Prop :=
  ∀ server s pageNo p s', HttpReachable server env s →
    httpGetPage server env pageNo s = .ok (.ok, some (.buffer p), s') →
    s'.file.pageSize = pageSize → (pageNo, p) ∈ s'.file.entries

/-- A page from the cache comes from a file that is in range mode once it has been probed. -/
theorem buffer_rangeMode {s s' : HttpState} (ready : Ready env s) (pageNo : Int) (p : Option Nat)
    (returned : httpGetPage server env pageNo s = .ok (.ok, some (.buffer p), s')) :
    ∃ s₁, Ready env s₁ ∧ RangeMode s₁ ∧ 0 < pageNo ∧
      httpGetPage server env pageNo s₁ = .ok (.ok, some (.buffer p), s') := by
  by_cases positive : pageNo ≤ 0
  · rw [httpGetPage, if_pos positive] at returned
    cases returned
  · cases data : s.file.data with
    | some d =>
        rw [httpGetPage, if_neg positive, data] at returned
        simp only at returned
        split at returned
        · cases returned
        · cases returned
    | none =>
        have ready' := ready_probe server ready
        cases probe : httpProbeMeta server env s with
        | mk rc s₁ =>
            rw [probe] at ready'
            cases rc with
            | ok =>
                have mode := probe_rangeMode data probe
                rw [getPage_probe server env pageNo data probe mode, if_neg positive] at returned
                exact ⟨s₁, ready', mode, Int.lt_of_not_ge positive, returned⟩
            | ioerr | shortRead | corrupt | cantopen =>
                rw [httpGetPage, if_neg positive, data, probe] at returned
                cases returned

theorem alive_of_fewer {s s' : HttpState} (ready : Ready env s) (mode : RangeMode s)
    (pageNo : Int) (p : Option Nat) (positive : 0 < pageNo)
    (fewer : env.prefetch < env.capacity s'.file.pageSize)
    (returned : httpGetPage server env pageNo s = .ok (.ok, some (.buffer p), s')) :
    (pageNo, p) ∈ s'.file.entries := by
  rw [getPage_rangeMode server env mode pageNo positive] at returned
  cases found : s.file.index? pageNo with
  | some i =>
      rw [found] at returned
      obtain ⟨p', s'', run, _, entry⟩ := hit_ready ready mode.probed pageNo i found
      cases returned.symm.trans run
      exact entry
  | none =>
      rw [found] at returned
      rcases missPage_ends server ready.cached mode.probed pageNo found with
        ⟨rc, n, _, _, run⟩ | ⟨body, data, contentLength, n, s'', _, run, obtained⟩
      · cases returned.symm.trans run
      · cases returned.symm.trans run
        refine obtained.alive.mpr ?_
        have count := prefetchCount_le server pageNo s
        have room := ready.cached.arrays.room mode.probed
        rw [ready.prefetch] at count
        rw [obtained.settings.pageSize, ← ready.capacity mode.probed] at fewer
        omega

/-- A file without an end: the byte at each position is given. Its length is not known. -/
def endlessServer (byteAt : Nat → UInt8) : Server where
  head _ := .failed
  range _ first last := .answered 206
    ((List.range' first.toNat (last - first + 1).toNat).map byteAt) (-1)
  download _ := .failed

/-- The file before and after its first request. -/
def unusedFile (env : Environment) : HttpState where
  file :=
    { data := none, haveMeta := false, contentLength := -1, pageSize := 4096, cacheCapacity := 0
      cacheCount := 0, cachePageNo := [], cacheData := []
      fallbackFull := httpEnvBool env.fallbackFulldl true, prefetchPages := env.prefetch }
  heap := []
  requests := 0

theorem unusedFile_reachable (server : Server) (env : Environment) :
    HttpReachable server env (unusedFile env) :=
  .opened (some "http://") _ rfl

theorem endless_answer (byteAt : Nat → UInt8) (n : Nat) (off : Int) (len : Nat)
    (short : len ≤ 65536) : perform ((endlessServer byteAt).range n off (off + len - 1)) =
      .answered 206 ((List.range' off.toNat (off + len - 1 - off + 1).toNat).map byteAt) (-1) := by
  refine if_pos ?_
  rw [List.length_map, List.length_range']
  omega

theorem headerPageSize_le (header : Bytes) : headerPageSize header ≤ 65536 :=
  (headerPageSize_valid header).2.1

theorem endless_pageSize (header : Bytes) : ∃ byteAt : Nat → UInt8,
    headerPageSize ((List.range' 0 32).map byteAt) = headerPageSize header := by
  have none : headerPageSize ((List.range' 0 32).map (fun _ => 0)) = 4096 := by decide
  cases end16 : header.drop 16 with
  | nil => exact ⟨_, none.trans (by rw [headerPageSize, end16])⟩
  | cons high rest =>
      cases rest with
      | nil => exact ⟨_, none.trans (by rw [headerPageSize, end16])⟩
      | cons low rest =>
          refine ⟨fun i => if i = 16 then high else if i = 17 then low else 0, ?_⟩
          rw [headerPageSize, headerPageSize, end16]
          rfl

/-- The file after it has been probed. -/
def probedEndless (env : Environment) (byteAt : Nat → UInt8) : HttpState :=
  { unusedFile env with
    file := (unusedFile env).file.probed env (-1) ((List.range' 0 32).map byteAt)
    requests := 2 }

theorem probedEndless_probe (env : Environment) (byteAt : Nat → UInt8) :
    httpProbeMeta (endlessServer byteAt) env (unusedFile env) =
      (.ok, probedEndless env byteAt) := by
  have answer : perform ((endlessServer byteAt).range 1 0 31) =
      .answered 206 ((List.range' 0 32).map byteAt) (-1) := endless_answer byteAt 1 0 32 (by decide)
  rw [httpProbeMeta]
  simp only [unusedFile, Bool.false_eq_true, if_false, Nat.zero_add, answer]
  rfl

/-- As many pages are prefetched as the cache has room for: the first page is freed before it
is returned. -/
theorem evicted_of_prefetch (env : Environment) (byteAt : Nat → UInt8)
    (many : env.capacity (headerPageSize ((List.range' 0 32).map byteAt)) ≤ env.prefetch) :
    ∃ p s', httpGetPage (endlessServer byteAt) env 1 (unusedFile env) =
        .ok (.ok, some (.buffer p), s') ∧
      s'.file.pageSize = headerPageSize ((List.range' 0 32).map byteAt) ∧
      (1, p) ∉ s'.file.entries ∧ Gone s'.heap p := by
  have probe := probedEndless_probe env byteAt
  have ready := ready_probe (endlessServer byteAt)
    (reachable_ready _ (unusedFile_reachable (endlessServer byteAt) env))
  rw [probe] at ready
  have mode : RangeMode (probedEndless env byteAt) := ⟨rfl, rfl⟩
  have new : ∀ pn, (probedEndless env byteAt).file.index? pn = none := fun pn =>
    (index?_none ready.cached.arrays pn).mpr List.not_mem_nil
  have short : (probedEndless env byteAt).file.pageSize ≤ 65536 :=
    headerPageSize_le ((List.range' 0 32).map byteAt)
  have delivers : ∀ n off, ∃ body total, perform ((endlessServer byteAt).range n off
      (off + (probedEndless env byteAt).file.pageSize - 1)) = .answered 206 body total ∧
        ¬ (0 < total ∧ (probedEndless env byteAt).file.contentLength < 0) := fun n off =>
    ⟨_, -1, endless_answer byteAt n off _ short, fun both => by omega⟩
  have count :=
    prefetchCount_ge (endlessServer byteAt) (s := probedEndless env byteAt) 1 env.prefetch.toNat
    (fun pn _ known => absurd (show (0 : Int) < -1 from known.1) (by decide))
    (fun n pn _ _ => delivers n _) (fun _ _ => List.not_mem_nil)
  rw [ready.prefetch, Nat.min_self] at count
  rw [getPage_probe (endlessServer byteAt) env 1 rfl probe mode, if_neg (by decide),
    getPage_rangeMode (endlessServer byteAt) env mode 1 (by decide), new]
  rcases missPage_ends (endlessServer byteAt) ready.cached mode.probed 1 (new 1) with
    ⟨rc, n, bad, fetch, _⟩ | ⟨body, data, contentLength, n, s', _, run, obtained⟩
  · obtain ⟨body, total, answer, _⟩ := delivers (probedEndless env byteAt).requests
      ((1 - 1) * (probedEndless env byteAt).file.pageSize)
    rw [httpFetchRange_206 _ _ _ _ body total answer] at fetch
    exact absurd (Prod.mk.inj fetch).1.symm bad
  · have lost : (1, (alloc (probedEndless env byteAt).heap body).1) ∉ s'.file.entries := by
      rw [obtained.alive, ready.capacity mode.probed]
      change ¬ prefetchCount _ 1 (probedEndless env byteAt) <
        env.capacity (headerPageSize ((List.range' 0 32).map byteAt))
      omega
    exact ⟨_, s', run, obtained.settings.pageSize, lost, obtained.gone lost⟩

/-- A page that is returned from the cache is always the entry for its number exactly if
fewer pages are prefetched than the cache has room for. -/
theorem staysAlive_iff (env : Environment) (header : Bytes) :
    StaysAlive env (headerPageSize header) ↔
      env.prefetch < env.capacity (headerPageSize header) := by
  constructor
  · intro alive
    by_contra many
    obtain ⟨byteAt, pageSize⟩ := endless_pageSize header
    rw [← pageSize] at alive many
    obtain ⟨p, s', returned, pageSize', lost, _⟩ := evicted_of_prefetch env byteAt
      (Int.not_lt.mp many)
    exact lost (alive _ _ 1 p s' (unusedFile_reachable _ env) returned pageSize')
  · intro fewer server s pageNo p s' reachable returned pageSize
    obtain ⟨s₁, ready, mode, positive, returned'⟩ := buffer_rangeMode (reachable_ready s reachable)
      pageNo p returned
    exact alive_of_fewer ready mode pageNo p positive (pageSize ▸ fewer) returned'

/-- One megabyte holds 16 pages of 65536 bytes, and 16 pages are prefetched. -/
theorem staysAlive_sixteen : ¬ StaysAlive ⟨none, some 1, some 16⟩ 65536 := by
  intro alive
  have capacity : Environment.capacity ⟨none, some 1, some 16⟩ 65536 = 16 := by decide
  have pageSize : headerPageSize ((List.range' 0 32).map (fun i => if i = 17 then 1 else 0)) =
      65536 := by decide
  obtain ⟨p, s', returned, pageSize', lost, _⟩ := evicted_of_prefetch ⟨none, some 1, some 16⟩
    (fun i => if i = 17 then 1 else 0) (by rw [pageSize, capacity]; decide)
  exact lost (alive _ _ 1 p s' (unusedFile_reachable _ _) returned (pageSize'.trans pageSize))

end RSQLite
