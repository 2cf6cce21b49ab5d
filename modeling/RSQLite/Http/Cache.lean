import RSQLite.Http.Page

/-!
The page cache as a list of entries, the most recent one first: a page that is found becomes
the first one, and a page that is inserted pushes out the last one. Each entry has a buffer
of its own that is good for its page.
-/
namespace RSQLite

open Buffers

variable {good : Int → Bytes → Prop}

/-- The entries have distinct pages and buffers of their own. -/
structure Cached (good : Int → Bytes → Prop) (s : HttpState) : Prop where
  arrays : Arrays s.file
  holds : Buffers.Holds s.heap good s.file.entries

theorem Cached.weaken {s : HttpState} (cached : Cached good s) (good' : Int → Bytes → Prop)
    (weaker : ∀ n ∈ s.file.entries.map Prod.fst, ∀ buf, good n buf → good' n buf) :
    Cached good' s :=
  ⟨cached.arrays, cached.holds.weaken good' weaker⟩

theorem entries_pages {f : HttpFile} (arrays : Arrays f) :
    f.entries.map Prod.fst = f.cachePageNo.take f.cacheCount := by
  rw [HttpFile.entries, List.map_take, arrays.cells_pageNos]

theorem entries_data {f : HttpFile} (arrays : Arrays f) :
    f.entries.map Prod.snd = f.cacheData.take f.cacheCount := by
  rw [HttpFile.entries, List.map_take, arrays.cells_data]

theorem index?_none {f : HttpFile} (arrays : Arrays f) (pageNo : Int) :
    f.index? pageNo = none ↔ pageNo ∉ f.entries.map Prod.fst := by
  rw [entries_pages arrays, HttpFile.index?, List.findIdx?_eq_none_iff]
  constructor
  · intro absent member
    simpa using absent pageNo member
  · intro absent n member
    simp only [decide_eq_false_iff_not]
    rintro rfl
    exact absent member

theorem index?_some {f : HttpFile} (arrays : Arrays f) (pageNo : Int) (i : Nat)
    (found : f.index? pageNo = some i) :
    ∃ (inside : i < f.entries.length) (p : Option Nat), f.cacheData[i]? = some p ∧
      f.entries[i] = (pageNo, p) ∧ i + 1 ≤ f.cacheCapacity := by
  rw [HttpFile.index?, List.findIdx?_eq_some_iff_getElem] at found
  obtain ⟨inside, page, _⟩ := found
  have length := arrays.entries_length
  rw [List.length_take, arrays.pageNos, Nat.min_eq_left arrays.count] at inside
  have count := arrays.count
  have insideData : i < f.cacheData.length := by rw [arrays.data]; omega
  refine ⟨by omega, f.cacheData[i], List.getElem?_eq_getElem insideData, ?_, by omega⟩
  simp only [List.getElem_take, decide_eq_true_eq] at page
  simp only [HttpFile.entries, HttpFile.cells, List.getElem_take, List.getElem_zip, page]

/-- The cache after a page has been found. -/
theorem hitPage_ok {s : HttpState} (cached : Cached good s) (pageNo : Int) (i : Nat)
    (found : s.file.index? pageNo = some i) :
    ∃ p cells, hitPage pageNo i s = .ok (.ok, some (.buffer p),
        { s with file := s.file.withCache s.file.cacheCount cells }) ∧
      (pageNo, p) ∈ s.file.entries ∧
      Cached good { s with file := s.file.withCache s.file.cacheCount cells } ∧
      (s.file.withCache s.file.cacheCount cells).entries =
        Recent.touch i (pageNo, p) s.file.entries := by
  obtain ⟨inside, p, data, entry, room⟩ := index?_some cached.arrays pageNo i found
  have length := cached.arrays.cells_length
  have count := cached.arrays.count
  rw [cached.arrays.entries_length] at inside
  -- the cells after the move, whether there is one or not
  have cells : ∃ cells, hitPage pageNo i s = .ok (.ok, some (.buffer p),
        { s with file := s.file.withCache s.file.cacheCount cells }) ∧
      cells = (pageNo, p) :: (s.file.cells.take i ++ s.file.cells.drop (i + 1)) := by
    refine ⟨_, ?_, rfl⟩
    rw [hitPage, data]
    simp only
    split
    · rw [toFront_ok cached.arrays i pageNo p room]
      rfl
    · next zero =>
        obtain rfl : i = 0 := Nat.eq_zero_of_not_pos zero
        have nonempty : s.file.cells.length ≠ 0 := by omega
        obtain ⟨first, rest, cells⟩ := List.exists_cons_of_ne_nil
          (List.ne_nil_of_length_pos (Nat.pos_of_ne_zero nonempty))
        have first' : first = (pageNo, p) := by
          simpa only [HttpFile.entries, cells, List.getElem_take, List.getElem_cons_zero]
            using entry
        rw [cells, List.take_zero, List.nil_append, List.drop_succ_cons, List.drop_zero, ← first',
          ← cells, HttpFile.withCache, cached.arrays.cells_pageNos, cached.arrays.cells_data]
  obtain ⟨cells, run, shape⟩ := cells
  have entries : (s.file.withCache s.file.cacheCount cells).entries =
      Recent.touch i (pageNo, p) s.file.entries := by
    rw [withCache_entries, shape, Recent.touch, List.eraseIdx_eq_take_drop_succ,
      show s.file.cacheCount = s.file.cacheCount - 1 + 1 by omega, List.take_succ_cons,
      HttpFile.entries, List.take_append, List.take_take, List.take_take, List.length_take, length,
      List.drop_take, Nat.min_eq_left (show i ≤ s.file.cacheCapacity by omega),
      Nat.min_eq_right (show i ≤ s.file.cacheCount - 1 by omega),
      Nat.min_eq_left (show i ≤ s.file.cacheCount by omega),
      show s.file.cacheCount - (i + 1) = s.file.cacheCount - 1 - i by omega]
  have arrays : Arrays (s.file.withCache s.file.cacheCount cells) := by
    refine cached.arrays.withCache _ _ ?_ count
    rw [shape, List.length_cons, List.length_append, List.length_take, List.length_drop, length]
    omega
  have member : (pageNo, p) ∈ s.file.entries := entry ▸ List.getElem_mem _
  refine ⟨p, cells, run, member, ⟨arrays, ?_⟩, entries⟩
  rw [entries]
  refine cached.holds.perm ?_
  rw [← entry]
  exact (Recent.touch_perm i _ _).symm

/-- What an insertion makes of the cache and of the buffers: the last page is freed if there
is no room. -/
structure Insertion (good : Int → Bytes → Prop) (entry : Int × Option Nat) (s s' : HttpState) :
    Prop where
  cached : Cached good s'
  entries : s'.file.entries = Recent.insert s.file.cacheCapacity entry s.file.entries
  file : ∃ count cells, s'.file = s.file.withCache count cells
  requests : s'.requests = s.requests
  evicted : ∀ e ∈ entry :: s.file.entries, e ∈ s'.file.entries ∨ Gone s'.heap e.2
  gone : ∀ p, Gone s.heap p → Gone s'.heap p

/-- The cache after a page has been inserted, whose buffer nothing else has. -/
theorem insertFront_ok {s : HttpState} (arrays : Arrays s.file) (probed : s.file.haveMeta = true)
    (pageNo : Int) (buf : Option Nat)
    (holds : Buffers.Holds s.heap good ((pageNo, buf) :: s.file.entries)) :
    ∃ s', insertFront pageNo buf s = .ok s' ∧ Insertion good (pageNo, buf) s s' := by
  have length := arrays.cells_length
  have used := arrays.entries_length
  have room := arrays.room probed
  have count := arrays.count
  rw [insertFront]
  split
  · next full =>
      -- the last entry gives way
      have nonempty : s.file.entries ≠ [] := List.ne_nil_of_length_pos (by omega)
      obtain ⟨init, last, split⟩ : ∃ init last, s.file.entries = init ++ [last] :=
        ⟨_, _, (List.dropLast_append_getLast nonempty).symm⟩
      have initLength : init.length + 1 = s.file.cacheCapacity := by
        rw [split, List.length_append, List.length_singleton] at used
        omega
      have whole : s.file.cells = init ++ [last] := by
        rw [← split, HttpFile.entries, List.take_of_length_le (by omega)]
      have lastData : s.file.cacheData[s.file.cacheCapacity - 1]? = some last.2 := by
        rw [← arrays.cells_data, whole, List.map_append, ← initLength, Nat.add_sub_cancel,
          List.getElem?_append_right (by rw [List.length_map]), List.length_map, Nat.sub_self]
        rfl
      rw [split, ← List.cons_append] at holds
      obtain ⟨heap, freed, holds'⟩ := holds.free_last
      rw [lastData]
      simp only [freed]
      rw [toFront_ok arrays _ pageNo buf (by omega), full]
      have entries : (s.file.withCache s.file.cacheCapacity ((pageNo, buf) ::
          (s.file.cells.take (s.file.cacheCapacity - 1) ++
            s.file.cells.drop (s.file.cacheCapacity - 1 + 1)))).entries =
          (pageNo, buf) :: init := by
        rw [withCache_entries, whole, ← initLength, Nat.add_sub_cancel, List.take_left,
          List.drop_of_length_le (by simp), List.append_nil, List.take_of_length_le (by simp)]
      refine ⟨_, rfl, ⟨arrays.withCache _ _ ?_ (Nat.le_refl _), ?_⟩, ?_, ⟨_, _, rfl⟩, rfl, ?_, ?_⟩
      · rw [List.length_cons, List.length_append, List.length_take, List.length_drop, length]
        omega
      · rw [entries]
        exact holds'
      · rw [entries, split, Recent.insert_of_full _ _ _ _ initLength]
      · intro e member
        rw [split, ← List.cons_append, List.mem_append, List.mem_singleton] at member
        rcases member with kept | rfl
        · exact .inl (entries ▸ kept)
        · exact .inr (gone_of_free s.heap heap e.2 freed)
      · exact fun p => gone_free s.heap heap last.2 p freed
  · next notFull =>
      rw [toFront_ok (arrays.more notFull) _ pageNo buf (by simp only; omega)]
      have entries : (s.file.withCache (s.file.cacheCount + 1) ((pageNo, buf) ::
          (s.file.cells.take s.file.cacheCount ++
            s.file.cells.drop (s.file.cacheCount + 1)))).entries =
              (pageNo, buf) :: s.file.entries := by
        rw [withCache_entries, List.take_succ_cons, List.take_append, List.take_take,
          List.length_take, length, Nat.min_eq_left arrays.count, Nat.min_self, Nat.sub_self,
          List.take_zero, List.append_nil]
        rfl
      refine ⟨{ s with file := s.file.withCache (s.file.cacheCount + 1) ((pageNo, buf) ::
        (s.file.cells.take s.file.cacheCount ++ s.file.cells.drop (s.file.cacheCount + 1))) }, rfl,
        ⟨arrays.withCache _ _ ?_ (by omega), ?_⟩, ?_, ⟨_, _, rfl⟩, rfl, ?_, fun _ gone => gone⟩
      · rw [List.length_cons, List.length_append, List.length_take, List.length_drop, length]
        omega
      · rw [entries]
        exact holds
      · rw [entries, Recent.insert_of_room _ _ _ (by omega)]
      · exact fun e member => .inl (entries ▸ member)

/-- What a transfer can teach about the file. -/
def HttpFile.learned (f : HttpFile) (data : Option Bytes) (contentLength : Int) : HttpFile :=
  { f with data := data, contentLength := contentLength }

/-- A body has been received, and the file downloaded if it is now. -/
def HttpState.received (s : HttpState) (body : Bytes) (data : Option Bytes) (contentLength : Int)
    (n : Nat) : HttpState :=
  { file := s.file.learned data contentLength, heap := (alloc s.heap body).2, requests := n }

theorem Arrays.received {s : HttpState} (arrays : Arrays s.file) (body : Bytes)
    (data : Option Bytes) (contentLength : Int) (n : Nat) :
    Arrays (s.received body data contentLength n).file :=
  ⟨arrays.pageNos, arrays.data, arrays.count, arrays.room⟩

/-- The length that is known after a `Content-Range` with this total. -/
def HttpFile.lengthFrom (f : HttpFile) (total : Int) : Int :=
  if 0 < total ∧ f.contentLength < 0 then total else f.contentLength

/-- The ways in which the fetch of a range ends. -/
inductive Fetched (server : Server) (off : Int) (len : Nat) (s : HttpState) :
    Rc × Option Nat × HttpState → Prop
  | refused (rc : Rc) (n : Nat) (bad : rc ≠ .ok) :
      Fetched server off len s (rc, none, { s with requests := n })
  | range (body : Bytes) (total : Int) (n : Nat)
      (answer : server.range s.requests off (off + len - 1) = .answered 206 body total) :
      Fetched server off len s (.ok, (alloc s.heap body).1,
        s.received body s.file.data (s.file.lengthFrom total) n)
  | whole (code : Nat) (body : Bytes) (total : Int) (m code' : Nat) (file : Bytes) (total' : Int)
      (n : Nat) (answer : server.range s.requests off (off + len - 1) = .answered code body total)
      (ignored : code ≠ 206) (fallback : s.file.fallbackFull = true) (undone : s.file.data = none)
      (download : server.download m = .answered code' file total') (accepted : code' < 400) :
      Fetched server off len s (.ok, (alloc s.heap body).1,
        s.received body (if file = [] then none else some file) (s.file.lengthFrom total) n)

theorem perform_answered (answer : Answer) (code : Nat) (body : Bytes) (total : Int)
    (performed : perform answer = .answered code body total) :
    answer = .answered code body total := by
  cases answer with
  | failed => cases performed
  | answered code' body' total' =>
      rw [perform] at performed
      split at performed
      · exact performed
      · cases performed

theorem httpFetchRange_fetched (server : Server) (off : Int) (len : Nat) (s : HttpState) :
    Fetched server off len s (httpFetchRange server off len s) := by
  rw [httpFetchRange]
  cases performed : perform (server.range s.requests off (off + len - 1)) with
  | failed => exact .refused _ _ (by decide)
  | answered code body total =>
      have answer := perform_answered _ _ _ _ performed
      simp only
      split
      · exact .refused _ _ (by decide)
      · split
        · next partial206 =>
            rw [partial206] at answer
            exact .range body total _ answer
        · next ignored =>
            split
            · next fallback =>
                rw [httpDownload]
                -- a download that fails leaves the file without data, as it was
                have unchanged : ∀ n, ({ s with file.data := none, requests := n } : HttpState) =
                    { s with requests := n } := by
                  intro n
                  rw [← fallback.2]
                cases downloaded : perform (server.download s.answeredOnce.requests) with
                | failed =>
                    have refused : Fetched server off len s _ :=
                      .refused .cantopen (s.requests + 2) (by decide)
                    rw [← unchanged] at refused
                    exact refused
                | answered code' file total' =>
                    by_cases refuses : 400 ≤ code'
                    · have refused : Fetched server off len s _ :=
                        .refused .cantopen (s.requests + 2) (by decide)
                      rw [← unchanged] at refused
                      simp only [if_pos refuses]
                      exact refused
                    · simp only [if_neg refuses]
                      exact .whole code body total _ code' file total' _ answer ignored fallback.1
                        fallback.2 (perform_answered _ _ _ _ downloaded) (Nat.lt_of_not_le refuses)
            · exact .refused _ _ (by decide)

end RSQLite
