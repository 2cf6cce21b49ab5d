import Mathlib.Data.List.Induction
import RSQLite.Http.Alive

/-!
The page cache without a prefetch. Over any number of calls it holds the pages that have been
asked for most recently, the last one first. Each buffer is that of one cell of the cache
until it is freed, which happens once.
-/
namespace RSQLite

open Buffers

variable (server : Server) (env : Environment)

/-- Calls of `http_get_page()`, one for each page. -/
def requestPages : List Int → HttpState → Outcome HttpState
  | [], s => .ok s
  | pageNo :: rest, s =>
      match httpGetPage server env pageNo s with
      | .ok (_, _, s') => requestPages rest s'
      | .error e => .error e

/-- How often the calls free a buffer. -/
def timesFreed (q : Nat) : List Int → HttpState → Nat
  | [], _ => 0
  | pageNo :: rest, s =>
      match httpGetPage server env pageNo s with
      | .ok (_, _, s') => releases s.heap s'.heap q + timesFreed q rest s'
      | .error _ => 0

/-- `httpClose()`. The URL, the handle and the arrays themselves are left out. -/
def httpClose (s : HttpState) : Outcome HttpState :=
  if s.file.cacheCapacity ≤ s.file.cacheData.length then
    match freeAll s.heap (s.file.cacheData.take s.file.cacheCapacity) with
    | none => .error .outOfBounds
    | some heap => .ok { s with heap := heap, file.data := none }
  else .error .outOfBounds

/-- The pages that are looked for. Pages are numbered from 1 on. -/
def requested (pages : List Int) : List Int := pages.filter (fun pageNo => decide (0 < pageNo))

theorem requested_concat (pages : List Int) (pageNo : Int) :
    requested (pages ++ [pageNo]) =
      if 0 < pageNo then requested pages ++ [pageNo] else requested pages := by
  by_cases positive : 0 < pageNo
  · simp [requested, List.filter_append, positive]
  · simp [requested, List.filter_append, positive]

theorem requestPages_concat (pages : List Int) (pageNo : Int) (s t t' : HttpState) (rc : Rc)
    (p : Option PagePointer) (run : requestPages server env pages s = .ok t)
    (call : httpGetPage server env pageNo t = .ok (rc, p, t')) :
    requestPages server env (pages ++ [pageNo]) s = .ok t' := by
  induction pages generalizing s with
  | nil =>
      cases run
      rw [List.nil_append, requestPages, call]
      rfl
  | cons first rest ih =>
      rw [List.cons_append, requestPages]
      rw [requestPages] at run
      split at run
      · exact ih _ run
      · cases run

theorem timesFreed_concat (q : Nat) (pages : List Int) (pageNo : Int) (s t t' : HttpState) (rc : Rc)
    (p : Option PagePointer) (run : requestPages server env pages s = .ok t)
    (call : httpGetPage server env pageNo t = .ok (rc, p, t')) :
    timesFreed server env q (pages ++ [pageNo]) s =
      timesFreed server env q pages s + releases t.heap t'.heap q := by
  induction pages generalizing s with
  | nil =>
      cases run
      simp [timesFreed, call]
  | cons first rest ih =>
      rw [List.cons_append, timesFreed, timesFreed]
      rw [requestPages] at run
      split at run
      · rw [ih _ run, Nat.add_assoc]
      · cases run

theorem outcome_map_ok {α β : Type} {x : Outcome α} {f : α → β} {b : β} (run : x.map f = .ok b) :
    ∃ a, x = .ok a ∧ f a = b := by
  cases x with
  | error e => cases run
  | ok a => exact ⟨a, rfl, Except.ok.inj run⟩

theorem toFront_spare {f f' : HttpFile} (arrays : Arrays f) (n : Nat) (pageNo : Int)
    (pd : Option Nat) (inside : n + 1 ≤ f.cacheCapacity) (moved : f.toFront n pageNo pd = .ok f') :
    f'.cacheCount = f.cacheCount ∧ f'.cacheData.length = f.cacheCapacity ∧
      f'.cacheData.drop (n + 1) = f.cacheData.drop (n + 1) := by
  have length := arrays.cells_length
  rw [toFront_ok arrays n pageNo pd inside] at moved
  cases moved
  refine ⟨rfl, ?_, ?_⟩
  · simp only [HttpFile.withCache, List.length_map, List.length_cons, List.length_append,
      List.length_take, List.length_drop, length]
    omega
  · simp only [HttpFile.withCache, List.map_cons, List.drop_succ_cons, List.map_append]
    rw [List.drop_left' (by simp [length]; omega), List.map_drop, arrays.cells_data]

/-- The cells that are not in use are null pointers. -/
def Spare (f : HttpFile) : Prop := ∀ p ∈ f.cacheData.drop f.cacheCount, p = none

theorem hitPage_spare {s s' : HttpState} (arrays : Arrays s.file) (pageNo : Int) (i : Nat)
    (found : s.file.index? pageNo = some i) (rc : Rc) (p : Option PagePointer)
    (run : hitPage pageNo i s = .ok (rc, p, s')) (spare : Spare s.file) : Spare s'.file := by
  obtain ⟨inside, pd, data, _, room⟩ := index?_some arrays pageNo i found
  rw [arrays.entries_length] at inside
  rw [hitPage, data] at run
  simp only at run
  split at run
  · obtain ⟨file, moved, result⟩ := outcome_map_ok run
    cases result
    obtain ⟨count, _, behind⟩ := toFront_spare arrays i pageNo pd room moved
    intro p member
    refine spare p ?_
    -- the cells in use reach beyond the one that was found
    have further : s.file.cacheCount = i + 1 + (s.file.cacheCount - (i + 1)) := by omega
    rw [count, further, ← List.drop_drop, behind, List.drop_drop, ← further] at member
    exact member
  · cases run
    exact spare

theorem insertFront_frees {s s' : HttpState} (pageNo : Int) (buf : Option Nat)
    (run : insertFront pageNo buf s = .ok s') :
    ∃ freed, free s.heap freed = some s'.heap ∧ (freed = none ∨ freed ∈ s.file.cacheData) := by
  rw [insertFront] at run
  split at run
  · split at run
    · cases run
    · next last cell =>
        split at run
        · cases run
        · next heap freed =>
            obtain ⟨file, _, rfl⟩ := outcome_map_ok run
            exact ⟨last, freed, .inr (List.mem_of_getElem? cell)⟩
  · obtain ⟨file, _, rfl⟩ := outcome_map_ok run
    exact ⟨none, rfl, .inl rfl⟩

theorem insertFront_replaces {t t' : HttpState} (pageNo : Int) (body : Bytes) (data : Option Bytes)
    (contentLength : Int) (n : Nat)
    (held : ∀ q, some q ∈ t.file.cacheData → (contents t.heap (some q)).isSome)
    (run : insertFront pageNo (alloc t.heap body).1 (t.received body data contentLength n) =
      .ok t') :
    ∃ freed, Replaces t.heap t'.heap freed ∧ (∀ q, freed = some q → some q ∈ t.file.cacheData) ∧
      t'.heap.length = (alloc t.heap body).2.length := by
  obtain ⟨freed, release, origin⟩ := insertFront_frees pageNo _ run
  have cell : ∀ q, freed = some q → some q ∈ t.file.cacheData := by
    rintro q rfl
    exact origin.resolve_left (by simp)
  refine ⟨freed, ?_, cell, free_length _ t'.heap freed release⟩
  refine .of_alloc_free t.heap t'.heap body freed (fun q same => ?_) release
  obtain ⟨buf, alive⟩ := Option.isSome_iff_exists.mp (held q (cell q same))
  exact contents_lt t.heap q buf alive

theorem insertFront_spare {s s' : HttpState} (arrays : Arrays s.file)
    (room : 0 < s.file.cacheCapacity) (pageNo : Int) (buf : Option Nat)
    (run : insertFront pageNo buf s = .ok s') (spare : Spare s.file) : Spare s'.file := by
  have count := arrays.count
  rw [insertFront] at run
  split at run
  · next full =>
      split at run
      · cases run
      · split at run
        · cases run
        · obtain ⟨file, moved, rfl⟩ := outcome_map_ok run
          obtain ⟨count', length, _⟩ := toFront_spare arrays _ pageNo buf (by omega) moved
          intro p member
          -- no cell is left
          rw [List.drop_of_length_le (by simp only [length, count']; omega)] at member
          cases member
  · next notFull =>
      obtain ⟨file, moved, rfl⟩ := outcome_map_ok run
      have inside : s.file.cacheCount + 1 ≤ s.file.cacheCapacity := by omega
      obtain ⟨count', _, behind⟩ := toFront_spare (arrays.more notFull) _ pageNo buf inside moved
      intro p member
      rw [count', behind, ← List.drop_drop] at member
      exact spare p (List.mem_of_mem_drop member)

section Invariant

variable {server}

/-- A cache that has just been set up. -/
structure EmptyCache (f : HttpFile) : Prop where
  probed : f.haveMeta = true
  undownloaded : f.data = none
  capacity : 2 ≤ f.cacheCapacity
  count : f.cacheCount = 0
  pageNos : f.cachePageNo = List.replicate f.cacheCapacity (-1)
  data : f.cacheData = List.replicate f.cacheCapacity none

/-- The body that the server has sent for a page in one of these transfers. -/
def Sent (server : Server) (pageSize first next : Nat) (pageNo : Int) (body : Bytes) : Prop :=
  ∃ n total, first ≤ n ∧ n < next ∧
    perform (server.range n ((pageNo - 1) * pageSize) ((pageNo - 1) * pageSize + pageSize - 1)) =
      .answered 206 body total

/-- The cache after these requests. The numbers say how often each buffer has been freed. -/
structure Recently (server : Server) (s : HttpState) (history : List Int) (times : Nat → Nat)
    (t : HttpState) : Prop where
  settings : SameSettings s.file t.file
  undownloaded : t.file.data = none
  requests : s.requests ≤ t.requests
  cached : Cached (Sent server s.file.pageSize s.requests t.requests) t
  pages : t.file.entries.map Prod.fst = Recent.recent s.file.cacheCapacity history
  spare : Spare t.file
  freed : FreedOnce s.heap t.heap times
  fresh : ∀ q ∈ t.file.entries.filterMap Prod.snd, s.heap.length ≤ q
  owned : ∀ q, s.heap.length ≤ q → contents t.heap (some q) ≠ none →
    q ∈ t.file.entries.filterMap Prod.snd

theorem EmptyCache.recently {s : HttpState} (empty : EmptyCache s.file) :
    Recently server s [] (fun _ => 0) s := by
  have entries : s.file.entries = [] := by rw [HttpFile.entries, empty.count, List.take_zero]
  refine ⟨.refl s.file, empty.undownloaded, Nat.le_refl _, ⟨⟨?_, ?_, ?_, ?_⟩, ?_⟩, ?_, ?_, .refl _,
    ?_, ?_⟩
  · rw [empty.pageNos, List.length_replicate]
  · rw [empty.data, List.length_replicate]
  · rw [empty.count]
    exact Nat.zero_le _
  · exact fun _ => empty.capacity
  · rw [entries]
    exact holds_nil
  · simp [entries, Recent.recent]
  · intro p member
    rw [empty.data] at member
    exact List.eq_of_mem_replicate (List.mem_of_mem_drop member)
  · simp [entries]
  · intro q late alive
    obtain ⟨buf, alive⟩ := Option.ne_none_iff_exists'.mp alive
    exact absurd (contents_lt s.heap q buf alive) (Nat.not_lt.mpr late)

variable {s t : HttpState} {history : List Int} {times : Nat → Nat}

theorem Recently.capacity (recently : Recently server s history times t)
    (empty : EmptyCache s.file) : 2 ≤ t.file.cacheCapacity := by
  rw [recently.settings.cacheCapacity]
  exact empty.capacity

theorem Recently.mode (recently : Recently server s history times t) (empty : EmptyCache s.file) :
    RangeMode t :=
  ⟨recently.settings.haveMeta.trans empty.probed, recently.undownloaded⟩

theorem Recently.found (recently : Recently server s history times t) (pageNo : Int) :
    t.file.index? pageNo = none ↔ pageNo ∉ Recent.recent s.file.cacheCapacity history := by
  rw [index?_none recently.cached.arrays, recently.pages]

theorem Recently.pointers (recently : Recently server s history times t) :
    t.file.cacheData.filterMap id = t.file.entries.filterMap Prod.snd := by
  have unused : (t.file.cacheData.drop t.file.cacheCount).filterMap id = [] :=
    List.filterMap_eq_nil_iff.mpr recently.spare
  rw [← List.take_append_drop t.file.cacheCount t.file.cacheData, List.filterMap_append, unused,
    ← entries_data recently.cached.arrays, List.filterMap_map, List.append_nil]
  rfl

theorem Recently.pointer (recently : Recently server s history times t) (q : Nat) :
    q ∈ t.file.entries.filterMap Prod.snd ↔
      s.heap.length ≤ q ∧ (contents t.heap (some q)).isSome := by
  constructor
  · intro member
    obtain ⟨e, entry, pointer⟩ := List.mem_filterMap.mp member
    obtain ⟨buf, alive, _⟩ := recently.cached.holds.held e entry
    rw [pointer] at alive
    exact ⟨recently.fresh q member, by rw [alive]; rfl⟩
  · exact fun ⟨late, alive⟩ => recently.owned q late (Option.isSome_iff_ne_none.mp alive)

theorem Recently.cell (recently : Recently server s history times t) (q : Nat) :
    some q ∈ t.file.cacheData ↔ s.heap.length ≤ q ∧ (contents t.heap (some q)).isSome := by
  rw [← recently.pointer q, ← recently.pointers]
  simp

/-- A page that is cached becomes the first one, and nothing is fetched. -/
theorem Recently.hit (recently : Recently server s history times t) (pageNo : Int) (i : Nat)
    (found : t.file.index? pageNo = some i) :
    ∃ p t', hitPage pageNo i t = .ok (.ok, some p, t') ∧ t'.requests = t.requests ∧
      t'.heap = t.heap ∧ Recently server s (history ++ [pageNo]) times t' := by
  have arrays := recently.cached.arrays
  obtain ⟨p, cells, run, member, cached, entries⟩ := hitPage_ok recently.cached pageNo i found
  obtain ⟨inside, p', _, entry, _⟩ := index?_some arrays pageNo i found
  have spare := hitPage_spare arrays pageNo i found _ _ run recently.spare
  have here : t.file.entries[i] = (pageNo, p) :=
    List.inj_on_of_nodup_map recently.cached.holds.keys (List.getElem_mem inside) member
      (by rw [entry])
  -- the same entries in another order
  have perm : ((t.file.withCache t.file.cacheCount cells).entries.filterMap Prod.snd).Perm
      (t.file.entries.filterMap Prod.snd) := by
    rw [entries, ← here]
    exact (Recent.touch_perm i _ inside).filterMap _
  have bounded : (t.file.entries.map Prod.fst).length ≤ s.file.cacheCapacity := by
    rw [recently.pages, Recent.recent_length]
    exact Nat.min_le_left _ _
  refine ⟨_, _, run, rfl, rfl, recently.settings.trans ⟨rfl, rfl, rfl, rfl, rfl⟩,
    recently.undownloaded, recently.requests, cached, ?_, spare, recently.freed,
    fun q member => recently.fresh q (perm.mem_iff.mp member),
    fun q late alive => perm.mem_iff.mpr (recently.owned q late alive)⟩
  rw [Recent.recent_concat, ← recently.pages]
  change (t.file.withCache t.file.cacheCount cells).entries.map Prod.fst = _
  rw [entries, Recent.map_touch]
  exact Recent.touch_request _ _ _ _ recently.cached.holds.keys bounded
    (by rwa [List.length_map]) (by rw [List.getElem_map, here])

/-- Without a prefetch a page that is not cached is inserted, and no other one. -/
theorem missPage_inserts {good : Int → Bytes → Prop} (cached : Cached good t)
    (probed : t.file.haveMeta = true) (noPrefetch : t.file.prefetchPages = 0) (pageNo : Int)
    (new : t.file.index? pageNo = none) (body : Bytes) (isGood : good pageNo body) (total : Int)
    (answer : perform (server.range t.requests ((pageNo - 1) * t.file.pageSize)
      ((pageNo - 1) * t.file.pageSize + t.file.pageSize - 1)) = .answered 206 body total) :
    ∃ t', missPage server pageNo t = .ok (.ok, some (.buffer (alloc t.heap body).1), t') ∧
      insertFront pageNo (alloc t.heap body).1
        (t.received body t.file.data (t.file.lengthFrom total) (t.requests + 1)) = .ok t' ∧
      Insertion good (pageNo, (alloc t.heap body).1)
        (t.received body t.file.data (t.file.lengthFrom total) (t.requests + 1)) t' := by
  obtain ⟨t', inserted, insertion⟩ := received_inserted cached probed pageNo new body isGood
    t.file.data (t.file.lengthFrom total) (t.requests + 1)
  have prefetch : t'.file.prefetchPages = 0 := insertion.settings.prefetchPages.trans noPrefetch
  refine ⟨t', ?_, inserted, insertion⟩
  rw [missPage, httpFetchRange_206 server _ _ t body total answer]
  simp only [inserted]
  change (prefetchLoop server pageNo t'.file.prefetchPages.toNat 1 t' >>= _) = _
  rw [prefetch]
  rfl

/-- What is held after an insertion and not from the first heap is the buffer of an entry. -/
theorem Recently.owned_insertion (recently : Recently server s history times t)
    {good : Int → Bytes → Prop} {pageNo : Int} {body : Bytes} {data : Option Bytes}
    {contentLength : Int} {n : Nat} {t' : HttpState} {freed : Option Nat}
    (insertion : Insertion good (pageNo, (alloc t.heap body).1)
      (t.received body data contentLength n) t')
    (replaces : Replaces t.heap t'.heap freed)
    (length : t'.heap.length = (alloc t.heap body).2.length) (q : Nat) (late : s.heap.length ≤ q)
    (alive : contents t'.heap (some q) ≠ none) : q ∈ t'.file.entries.filterMap Prod.snd := by
  -- what is neither freed nor new has been that of an entry before
  have entry : ∃ e ∈ (pageNo, (alloc t.heap body).1) :: t.file.entries, e.2 = some q := by
    rcases Nat.lt_or_ge q t.heap.length with old | beyond
    · rw [replaces.old q old] at alive
      have other : freed ≠ some q := fun same => alive (if_pos same)
      rw [if_neg other] at alive
      obtain ⟨e, member, pointer⟩ := List.mem_filterMap.mp (recently.owned q late alive)
      exact ⟨e, List.mem_cons_of_mem _ member, pointer⟩
    · obtain ⟨buf, alive⟩ := Option.ne_none_iff_exists'.mp alive
      have inside := contents_lt t'.heap q buf alive
      rw [length] at inside
      exact ⟨_, List.mem_cons_self, (alloc_address t.heap body q).mpr ⟨beyond, inside⟩⟩
  obtain ⟨e, member, pointer⟩ := entry
  rcases insertion.evicted e member with kept | gone
  · exact List.mem_filterMap.mpr ⟨e, kept, pointer⟩
  · exact absurd (gone q pointer).2 alive

/-- A page that is not cached is fetched and becomes the first one. -/
theorem Recently.miss (recently : Recently server s history times t) (empty : EmptyCache s.file)
    (noPrefetch : s.file.prefetchPages = 0) (pageNo : Int) (new : t.file.index? pageNo = none)
    (body : Bytes) (total : Int)
    (answer : perform (server.range t.requests ((pageNo - 1) * t.file.pageSize)
      ((pageNo - 1) * t.file.pageSize + t.file.pageSize - 1)) = .answered 206 body total) :
    ∃ p t', missPage server pageNo t = .ok (.ok, some p, t') ∧ t'.requests = t.requests + 1 ∧
      Recently server s (history ++ [pageNo]) (fun q => times q + releases t.heap t'.heap q)
        t' := by
  have arrays := recently.cached.arrays
  have later := recently.requests
  have sent : Sent server s.file.pageSize s.requests (t.requests + 1) pageNo body :=
    ⟨t.requests, total, later, Nat.lt_succ_self _, by rwa [← recently.settings.pageSize]⟩
  have cached : Cached (Sent server s.file.pageSize s.requests (t.requests + 1)) t :=
    recently.cached.weaken _ (fun _ _ _ ⟨n, total, first, next, answer⟩ =>
      ⟨n, total, first, Nat.lt_succ_of_lt next, answer⟩)
  obtain ⟨t', run, inserted, insertion⟩ := missPage_inserts cached
    (recently.settings.haveMeta.trans empty.probed)
    (recently.settings.prefetchPages.trans noPrefetch) pageNo new body sent total answer
  have settings : SameSettings t.file t'.file :=
    (SameSettings.received t body t.file.data (t.file.lengthFrom total) (t.requests + 1)).trans
      insertion.settings
  have spare : Spare t'.file := by
    have room := Nat.lt_of_lt_of_le Nat.two_pos (recently.capacity empty)
    exact insertFront_spare (arrays.received body t.file.data (t.file.lengthFrom total)
      (t.requests + 1)) room pageNo _ inserted recently.spare
  obtain ⟨freed, replaces, origin, length⟩ := insertFront_replaces pageNo body _ _ _
    (fun q cell => ((recently.cell q).mp cell).2) inserted
  have held : ∀ q, freed = some q → s.heap.length ≤ q ∧ contents t.heap (some q) ≠ none :=
    fun q same => ((recently.cell q).mp (origin q same)).imp_right Option.isSome_iff_ne_none.mp
  refine ⟨.buffer (alloc t.heap body).1, t', run, insertion.requests,
    recently.settings.trans settings, ?_, ?_, ?_, ?_, spare, recently.freed.step replaces held,
    ?_, fun q => recently.owned_insertion insertion replaces length q⟩
  · obtain ⟨count, cells, file⟩ := insertion.file
    rw [file]
    exact recently.undownloaded
  · rw [insertion.requests]
    exact Nat.le_succ_of_le later
  · rw [insertion.requests]
    exact insertion.cached
  · rw [insertion.entries, Recent.map_insert, Recent.recent_concat, ← recently.pages]
    change Recent.insert t.file.cacheCapacity _ (t.file.entries.map Prod.fst) = _
    rw [recently.settings.cacheCapacity]
    exact Recent.insert_request _ _ _ ((index?_none arrays pageNo).mp new)
  · intro q member
    obtain ⟨e, member, pointer⟩ := List.mem_filterMap.mp member
    rw [insertion.entries] at member
    rcases List.mem_cons.mp (List.mem_of_mem_take member) with rfl | old
    · exact Nat.le_trans recently.freed.grows ((alloc_address t.heap body q).mp pointer).1
    · exact recently.fresh q (List.mem_filterMap.mpr ⟨e, old, pointer⟩)

/-- One call of `http_get_page()`. -/
theorem Recently.call (env : Environment) (recently : Recently server s history times t)
    (empty : EmptyCache s.file) (noPrefetch : s.file.prefetchPages = 0) (pageNo : Int)
    (honoured : 0 < pageNo → t.file.index? pageNo = none → ∃ body total,
      perform (server.range t.requests ((pageNo - 1) * t.file.pageSize)
        ((pageNo - 1) * t.file.pageSize + t.file.pageSize - 1)) = .answered 206 body total) :
    ∃ rc p t', httpGetPage server env pageNo t = .ok (rc, p, t') ∧
      t'.requests = t.requests +
        (if 0 < pageNo ∧ pageNo ∉ Recent.recent s.file.cacheCapacity history then 1 else 0) ∧
      Recently server s (if 0 < pageNo then history ++ [pageNo] else history)
        (fun q => times q + releases t.heap t'.heap q) t' := by
  have unchanged : ∀ h, h = t.heap → (fun q => times q + releases t.heap h q) = times := by
    rintro h rfl
    funext q
    rw [releases_self, Nat.add_zero]
  by_cases positive : 0 < pageNo
  · rw [if_pos positive, getPage_rangeMode server env (recently.mode empty) pageNo positive]
    cases found : t.file.index? pageNo with
    | some i =>
        have cached : ¬ pageNo ∉ Recent.recent s.file.cacheCapacity history := by
          rw [← recently.found pageNo, found]
          simp
        obtain ⟨p, t', run, requests, heap, recently'⟩ := recently.hit pageNo i found
        refine ⟨_, _, t', run, ?_, ?_⟩
        · rw [requests, if_neg (fun new => cached new.2), Nat.add_zero]
        · rwa [unchanged t'.heap heap]
    | none =>
        obtain ⟨body, total, answer⟩ := honoured positive found
        obtain ⟨p, t', run, requests, recently'⟩ :=
          recently.miss empty noPrefetch pageNo found body total answer
        refine ⟨_, _, t', run, ?_, recently'⟩
        rw [requests, if_pos ⟨positive, (recently.found pageNo).mp found⟩]
  · refine ⟨.corrupt, none, t, by rw [httpGetPage, if_pos (Int.not_lt.mp positive)], ?_, ?_⟩
    · rw [if_neg (fun new => positive new.1), Nat.add_zero]
    · rwa [if_neg positive, unchanged t.heap rfl]

end Invariant

section Sequences

variable {server env}

/-- Each fetch that the calls make is answered with a part of the file. -/
def RangesHonoured (server : Server) (env : Environment) (pages : List Int) (s : HttpState) :
    Prop :=
  ∀ before pageNo t, before ++ [pageNo] <+: pages → requestPages server env before s = .ok t →
    0 < pageNo → t.file.index? pageNo = none → ∃ body total,
      perform (server.range t.requests ((pageNo - 1) * t.file.pageSize)
        ((pageNo - 1) * t.file.pageSize + t.file.pageSize - 1)) = .answered 206 body total

theorem RangesHonoured.prefix_of {pages before : List Int} {s : HttpState}
    (honoured : RangesHonoured server env pages s) (part : before <+: pages) :
    RangesHonoured server env before s :=
  fun before' pageNo t part' => honoured before' pageNo t (part'.trans part)

theorem requestPages_recently {s : HttpState} (empty : EmptyCache s.file)
    (noPrefetch : s.file.prefetchPages = 0) (pages : List Int)
    (honoured : RangesHonoured server env pages s) :
    ∃ t, requestPages server env pages s = .ok t ∧
      Recently server s (requested pages) (fun q => timesFreed server env q pages s) t := by
  induction pages using List.reverseRecOn with
  | nil => exact ⟨s, rfl, empty.recently⟩
  | append_singleton pages pageNo ih =>
      obtain ⟨t, run, recently⟩ := ih (honoured.prefix_of (List.prefix_append pages [pageNo]))
      obtain ⟨rc, p, t', call, _, recently'⟩ := recently.call env empty noPrefetch pageNo
        (honoured pages pageNo t (List.prefix_refl _) run)
      refine ⟨t', requestPages_concat server env pages pageNo s t t' rc p run call, ?_⟩
      rw [requested_concat]
      simpa only [timesFreed_concat server env _ pages pageNo s t t' rc p run call] using recently'

variable {s t : HttpState} {history : List Int} {times : Nat → Nat}

theorem Recently.close (recently : Recently server s history times t) :
    ∃ u, httpClose t = .ok u ∧ ∀ q, contents u.heap (some q) =
      if s.heap.length ≤ q then none else contents s.heap (some q) := by
  have arrays := recently.cached.arrays
  have nodup : (t.file.cacheData.filterMap id).Nodup := by
    rw [recently.pointers]
    exact recently.cached.holds.pointers
  obtain ⟨heap, run, after⟩ := freeAll_held t.heap t.file.cacheData nodup (fun p member => by
    cases p with
    | none => simp [contents]
    | some q => exact Option.isSome_iff_ne_none.mp ((recently.cell q).mp member).2)
  refine ⟨{ t with heap := heap, file.data := none }, ?_, fun q => ?_⟩
  · rw [httpClose, if_pos (Nat.le_of_eq arrays.data.symm),
      List.take_of_length_le (Nat.le_of_eq arrays.data), run]
  · simp only [after q, recently.cell q]
    by_cases late : s.heap.length ≤ q
    · cases contents t.heap (some q) <;> simp [late]
    · rw [if_neg (fun both => late both.1), if_neg late,
        recently.freed.kept q (Nat.lt_of_not_le late)]

end Sequences

/-- What the calls for these pages have made of an empty cache. The arrays list the pages that
have been asked for most recently, each with its own data. A call fetches its page if it is
not in that list. Each buffer is that of one cell as long as it is held, and has been freed
once when it is not. -/
structure LeastRecentlyUsed (server : Server) (env : Environment) (s : HttpState)
    (pages : List Int) (t : HttpState) : Prop where
  pageNos : t.file.cachePageNo.take t.file.cacheCount =
    Recent.recent s.file.cacheCapacity (requested pages)
  count : t.file.cacheCount = min s.file.cacheCapacity (requested pages).dedup.length
  data : ∀ (i : Nat) (pageNo : Int), (t.file.cachePageNo.take t.file.cacheCount)[i]? = some pageNo →
    ∃ (p : Option Nat) (body : Bytes), t.file.cacheData[i]? = some p ∧
      contents t.heap p = some body ∧
      Sent server s.file.pageSize s.requests t.requests pageNo body
  fetches : ∀ before pageNo, before ++ [pageNo] <+: pages → ∃ u rc p u',
    requestPages server env before s = .ok u ∧ httpGetPage server env pageNo u = .ok (rc, p, u') ∧
      u'.requests = u.requests + (if 0 < pageNo ∧
        pageNo ∉ Recent.recent s.file.cacheCapacity (requested before) then 1 else 0)
  slots : ∀ q, t.file.cacheData.count (some q) =
    if s.heap.length ≤ q ∧ (contents t.heap (some q)).isSome then 1 else 0
  frees : ∀ q, timesFreed server env q pages s =
    if s.heap.length ≤ q ∧ q < t.heap.length ∧ (contents t.heap (some q)).isNone then 1 else 0
  others : ∀ q, q < s.heap.length → contents t.heap (some q) = contents s.heap (some q)
  closed : ∃ u, httpClose t = .ok u ∧ ∀ q, contents u.heap (some q) =
    if s.heap.length ≤ q then none else contents s.heap (some q)

theorem cache_lru (s : HttpState) (pages : List Int) (empty : EmptyCache s.file)
    (noPrefetch : s.file.prefetchPages = 0) (honoured : RangesHonoured server env pages s) :
    ∃ t, requestPages server env pages s = .ok t ∧ LeastRecentlyUsed server env s pages t := by
  obtain ⟨t, run, recently⟩ := requestPages_recently empty noPrefetch pages honoured
  have arrays := recently.cached.arrays
  refine ⟨t, run, ?_, ?_, ?_, ?_, ?_, recently.freed.times, recently.freed.kept, recently.close⟩
  · rw [← entries_pages arrays, recently.pages]
  · rw [← arrays.entries_length, ← Recent.recent_length, ← recently.pages, List.length_map]
  · intro i pageNo cell
    rw [← entries_pages arrays, List.getElem?_map, Option.map_eq_some_iff] at cell
    obtain ⟨e, cell, rfl⟩ := cell
    obtain ⟨body, held, sent⟩ :=
      recently.cached.holds.held e (List.mem_of_getElem? cell)
    refine ⟨e.2, body, ?_, held, sent⟩
    have data : (t.file.entries.map Prod.snd)[i]? = some e.2 := by
      rw [List.getElem?_map, cell]
      rfl
    rw [entries_data arrays, List.getElem?_take] at data
    split at data
    · exact data
    · cases data
  · intro before pageNo part
    obtain ⟨u, run', recently'⟩ := requestPages_recently empty noPrefetch before
      (honoured.prefix_of ((List.prefix_append before [pageNo]).trans part))
    obtain ⟨rc, p, u', call, requests, _⟩ := recently'.call env empty noPrefetch pageNo
      (honoured before pageNo u part run')
    exact ⟨u, rc, p, u', run', call, requests⟩
  · intro q
    have count : t.file.cacheData.count (some q) = (t.file.cacheData.filterMap id).count q := by
      rw [List.count_filterMap]
      rfl
    rw [count, recently.pointers, recently.cached.holds.pointers.count]
    simp only [recently.pointer q]

/-- A file of pages of 512 bytes. -/
def numberedPages : Server where
  head _ := .answered 200 2048
  range _ first _ := .answered 206 (List.replicate 512 (UInt8.ofNat (first.toNat / 512))) 2048
  download _ := .failed

def twoCells : HttpState where
  file :=
    { data := none, haveMeta := true, contentLength := 2048, pageSize := 512, cacheCapacity := 2
      cacheCount := 0, cachePageNo := [-1, -1], cacheData := [none, none]
      fallbackFull := true, prefetchPages := 0 }
  heap := []
  requests := 2

theorem cache_lru_evicts :
    ∃ t, requestPages numberedPages ⟨none, none, none⟩ [1, 2, 1, 3] twoCells = .ok t ∧
      t.file.cachePageNo.take t.file.cacheCount = [3, 1] ∧
      LeastRecentlyUsed numberedPages ⟨none, none, none⟩ twoCells [1, 2, 1, 3] t := by
  obtain ⟨t, run, lru⟩ := cache_lru numberedPages ⟨none, none, none⟩ twoCells [1, 2, 1, 3]
    ⟨rfl, rfl, Nat.le_refl 2, rfl, rfl, rfl⟩ rfl
    (fun _ _ _ _ _ _ _ => ⟨_, _, by simp only [perform, numberedPages, List.length_replicate]; rfl⟩)
  exact ⟨t, run, lru.pageNos.trans (by decide), lru⟩

end RSQLite
