import RSQLite.Library.Buffers
import RSQLite.Library.Runs
import RSQLite.R.Vector
import RSQLite.Sqlite.Value

/-!
The buffer that the bytes of a transfer are collected in. Its size has 64 bits, and is
converted to `int` each time it grows.
-/
namespace RSQLite

open Buffers

/-- `struct Buf`. -/
structure Buf where
  data : Option Nat
  sz : Nat
deriving DecidableEq, Repr

/-- A size that is converted to `int`. -/
def narrowed (size : Nat) : Int := (Int32.ofNat size).toInt

/-- `sqlite3_realloc()`. A size that is not positive frees the buffer. Otherwise the buffer
stays as it is, if the allocator does not yield. -/
def sqlite3Realloc (yields : Bool) (h : Heap UInt8) (p : Option Nat) (n : Int) :
    Outcome (Option Nat × Heap UInt8) :=
  if n ≤ 0 then
    match free h p with
    | none => .error .outOfBounds
    | some h => .ok (none, h)
  else if yields then
    match resize h p n.toNat 0 with
    | none => .error .outOfBounds
    | some moved => .ok moved
  else .ok (none, h)

/-- `curl_write_cb()`. It returns the number of bytes that it has taken. -/
def curlWriteCb (yields : Bool) (chunk : Bytes) (b : Buf) (h : Heap UInt8) :
    Outcome (Nat × Buf × Heap UInt8) := do
  let (newData, h) ← sqlite3Realloc yields h b.data (narrowed (b.sz + chunk.length))
  match newData with
  | none => .ok (0, b, h)
  | some newData =>
      match store h newData b.sz chunk with
      | none => .error .outOfBounds
      | some h => .ok (chunk.length, ⟨some newData, b.sz + chunk.length⟩, h)

/-- A call of the callback, and whether the allocator yields in it. -/
structure WriteCall where
  chunk : Bytes
  yields : Bool
deriving DecidableEq, Repr

inductive Phase
  | running
  | aborted
  | faulted
deriving DecidableEq, Repr

/-- A transfer, with the bytes that have been passed to the callback. -/
structure WriteState where
  buf : Buf
  heap : Heap UInt8
  received : Bytes
  phase : Phase
deriving DecidableEq, Repr

namespace WriteState

def start : WriteState := ⟨⟨none, 0⟩, [], [], .running⟩

/-- A transfer is aborted when a chunk is not taken as a whole. -/
def write (t : WriteState) (c : WriteCall) : WriteState :=
  match t.phase with
  | .running =>
      match curlWriteCb c.yields c.chunk t.buf t.heap with
      | .error _ => { t with phase := .faulted }
      | .ok (taken, buf, heap) =>
          { buf := buf
            heap := heap
            received := t.received ++ c.chunk
            phase := if taken = c.chunk.length then .running else .aborted }
  | _ => t

/-- The buffer begins with the bytes received, and is the only one. -/
structure Gathered (t : WriteState) : Prop where
  size : t.buf.sz = t.received.length
  owned : ∃ block, contents t.heap t.buf.data = some block ∧ t.buf.sz ≤ block.length ∧
    block.take t.buf.sz = t.received
  alone : Alone t.heap t.buf.data

/-- The caller can free the buffer that it had before, or none, and then there is none. -/
structure Released (before t : WriteState) : Prop where
  pointer : t.buf.data = before.buf.data ∨ t.buf.data = none
  freed : ∃ h, free t.heap t.buf.data = some h ∧ Alone h none

/-- What a call should leave, if it is made. -/
def CallKept (t : WriteState) (c : WriteCall) : Prop :=
  t.phase = .running →
    match (t.write c).phase with
    | .running => Gathered (t.write c)
    | .aborted => Released t (t.write c)
    | .faulted => False

/-- The size with the chunk is an `int`; or else it becomes one that is not positive, and
there is no buffer yet, or a positive one, and the allocator does not yield. -/
def Grows (t : WriteState) (c : WriteCall) : Prop :=
  t.buf.sz + c.chunk.length < 2 ^ 31 ∨
    (narrowed (t.buf.sz + c.chunk.length) ≤ 0 ∧ t.buf.sz = 0) ∨
      (0 < narrowed (t.buf.sz + c.chunk.length) ∧ c.yields = false)

end WriteState

section Sizes

variable (size : Nat)

theorem narrowed_of_lt (small : size < 2 ^ 31) : narrowed size = size := by
  rw [narrowed, Int32.toInt_ofNat', Int.bmod_def, Int32.size]
  omega

theorem narrowed_lt_size (large : 2 ^ 31 ≤ size) : narrowed size < size := by
  rw [narrowed, Int32.toInt_ofNat', Int.bmod_def, Int32.size]
  omega

end Sizes

section Realloc

variable (h : Heap UInt8)

theorem realloc_released (yields : Bool) (p : Nat) (n : Int) (block : Bytes)
    (negative : n ≤ 0) (held : contents h (some p) = some block) :
    ∃ h', sqlite3Realloc yields h (some p) n = .ok (none, h') ∧
      contents h' (some p) = none := by
  obtain ⟨h', freed⟩ := free_held h (some p) block held
  refine ⟨h', ?_, (gone_of_free h h' (some p) freed p rfl).2⟩
  rw [sqlite3Realloc, if_pos negative, freed]

theorem realloc_null (yields : Bool) (n : Int) (negative : n ≤ 0) :
    sqlite3Realloc yields h none n = .ok (none, h) := by
  rw [sqlite3Realloc, if_pos negative]
  rfl

theorem realloc_failed (p : Option Nat) (n : Int) (positive : 0 < n) :
    sqlite3Realloc false h p n = .ok (none, h) := by
  rw [sqlite3Realloc, if_neg (Int.not_le.mpr positive)]
  rfl

theorem realloc_grown (p : Option Nat) (n : Int) (block : Bytes) (positive : 0 < n)
    (held : contents h p = some block) (alone : Alone h p) :
    ∃ q h', sqlite3Realloc true h p n = .ok (some q, h') ∧ Alone h' (some q) ∧
      contents h' (some q) =
        some (block.take n.toNat ++ List.replicate (n.toNat - block.length) 0) := by
  have wanted : 0 < n.toNat := by omega
  obtain ⟨q, h', resized, rest⟩ := resize_held h p n.toNat 0 block held alone wanted
  refine ⟨q, h', ?_, rest⟩
  rw [sqlite3Realloc, if_neg (Int.not_le.mpr positive), if_pos rfl, resized]

end Realloc

namespace WriteState

variable (t : WriteState) (c : WriteCall)

/-- A running transfer, before the next call. -/
structure Ready (t : WriteState) : Prop extends Gathered t where
  small : t.buf.sz < 2 ^ 31
  allocated : t.buf.data = none ↔ t.buf.sz = 0

theorem write_refused (running : t.phase = .running)
    (refused : curlWriteCb c.yields c.chunk t.buf t.heap = .ok (0, t.buf, t.heap)) :
    t.write c =
      { t with
        received := t.received ++ c.chunk
        phase := if 0 = c.chunk.length then .running else .aborted } := by
  rw [write, running]
  dsimp only
  rw [refused]

theorem refused_kept (ready : Ready t) (running : t.phase = .running)
    (refused : curlWriteCb c.yields c.chunk t.buf t.heap = .ok (0, t.buf, t.heap)) :
    CallKept t c ∧ ((t.write c).phase = .running → Ready (t.write c)) := by
  rw [CallKept, write_refused t c running refused]
  by_cases empty : c.chunk = []
  · have same : t.received ++ c.chunk = t.received := by rw [empty, List.append_nil]
    simp only [empty, List.length_nil, if_true, List.append_nil]
    exact ⟨fun _ => ⟨ready.size, ready.owned, ready.alone⟩,
      fun _ => ⟨⟨ready.size, ready.owned, ready.alone⟩, ready.small, ready.allocated⟩⟩
  · have nonempty : ¬ 0 = c.chunk.length :=
      fun same => empty (List.eq_nil_of_length_eq_zero same.symm)
    simp only [if_neg nonempty]
    obtain ⟨block, held, -⟩ := ready.owned
    obtain ⟨h', freed⟩ := free_held t.heap t.buf.data block held
    exact ⟨fun _ => ⟨.inl rfl, h', freed, free_alone _ _ _ ready.alone freed⟩, nofun⟩

theorem total_nat (small : t.buf.sz + c.chunk.length < 2 ^ 31) :
    (narrowed (t.buf.sz + c.chunk.length)).toNat = t.buf.sz + c.chunk.length := by
  rw [narrowed_of_lt _ small, Int.toNat_natCast]

/-- A buffer that has room for the chunk takes it. -/
theorem write_taken (ready : Ready t) (small : t.buf.sz + c.chunk.length < 2 ^ 31)
    (yields : c.yields = true) (positive : 0 < t.buf.sz + c.chunk.length) :
    ∃ q h, curlWriteCb c.yields c.chunk t.buf t.heap =
        .ok (c.chunk.length, ⟨some q, t.buf.sz + c.chunk.length⟩, h) ∧
      Alone h (some q) ∧ contents h (some q) = some (t.received ++ c.chunk) := by
  obtain ⟨block, held, enough, begins⟩ := ready.owned
  have wanted : 0 < narrowed (t.buf.sz + c.chunk.length) := by
    rw [narrowed_of_lt _ small]
    omega
  obtain ⟨q, h, moved, alone, grown⟩ :=
    realloc_grown t.heap t.buf.data _ block wanted held ready.alone
  rw [total_nat t c small] at grown
  generalize resized : block.take (t.buf.sz + c.chunk.length) ++
    List.replicate (t.buf.sz + c.chunk.length - block.length) 0 = block' at grown
  have length : block'.length = t.buf.sz + c.chunk.length := by
    rw [← resized, List.length_append, List.length_take, List.length_replicate]
    omega
  have first : block'.take t.buf.sz = t.received := by
    rw [← resized, ← begins, List.take_append_of_le_length, List.take_take]
    · congr 1
      omega
    · rw [List.length_take]
      omega
  obtain ⟨h', stored, alone', held'⟩ :=
    store_held h q t.buf.sz c.chunk block' grown alone (Nat.le_of_eq length.symm)
  rw [first, List.drop_of_length_le (Nat.le_of_eq length), List.append_nil] at held'
  refine ⟨q, h', ?_, alone', held'⟩
  rw [curlWriteCb, yields, moved]
  simp only [bind, Except.bind, stored]

theorem taken_kept (ready : Ready t) (running : t.phase = .running)
    (small : t.buf.sz + c.chunk.length < 2 ^ 31) (yields : c.yields = true)
    (positive : 0 < t.buf.sz + c.chunk.length) :
    Ready (t.write c) ∧ (t.write c).phase = .running ∧
      (t.write c).buf.sz = t.buf.sz + c.chunk.length := by
  obtain ⟨q, h, taken, alone, held⟩ := write_taken t c ready small yields positive
  have size : t.buf.sz + c.chunk.length = (t.received ++ c.chunk).length := by
    rw [List.length_append, ready.size]
  rw [write, running]
  simp only [taken, if_true]
  exact ⟨⟨⟨size, ⟨_, held, Nat.le_of_eq size, by rw [size, List.take_length]⟩, alone⟩, small,
    ⟨nofun, fun zero => absurd zero (Nat.ne_of_gt positive)⟩⟩, trivial, trivial⟩

theorem write_beyond (ready : Ready t) (large : 2 ^ 31 ≤ t.buf.sz + c.chunk.length)
    (yields : c.yields = true) (positive : 0 < narrowed (t.buf.sz + c.chunk.length)) :
    curlWriteCb c.yields c.chunk t.buf t.heap = .error .outOfBounds := by
  obtain ⟨block, held, -⟩ := ready.owned
  obtain ⟨q, h, moved, alone, grown⟩ :=
    realloc_grown t.heap t.buf.data _ block positive held ready.alone
  have less := narrowed_lt_size _ large
  have beyond := store_beyond h q t.buf.sz c.chunk _ grown (by
    rw [List.length_append, List.length_take, List.length_replicate]
    omega)
  rw [curlWriteCb, yields, moved]
  simp only [bind, Except.bind, beyond]

theorem write_dangling (ready : Ready t) (negative : narrowed (t.buf.sz + c.chunk.length) ≤ 0)
    (p : Nat) (pointer : t.buf.data = some p) :
    ∃ h, curlWriteCb c.yields c.chunk t.buf t.heap = .ok (0, t.buf, h) ∧
      contents h (some p) = none := by
  obtain ⟨block, held, -⟩ := ready.owned
  rw [pointer] at held
  obtain ⟨h, released, dead⟩ := realloc_released t.heap c.yields p _ block negative held
  refine ⟨h, ?_, dead⟩
  rw [curlWriteCb, pointer, released]
  rfl

theorem write_null (negative : narrowed (t.buf.sz + c.chunk.length) ≤ 0)
    (pointer : t.buf.data = none) :
    curlWriteCb c.yields c.chunk t.buf t.heap = .ok (0, t.buf, t.heap) := by
  rw [curlWriteCb, pointer, realloc_null t.heap c.yields _ negative]
  rfl

theorem write_failed (positive : 0 < narrowed (t.buf.sz + c.chunk.length))
    (fails : c.yields = false) :
    curlWriteCb c.yields c.chunk t.buf t.heap = .ok (0, t.buf, t.heap) := by
  rw [curlWriteCb, fails, realloc_failed t.heap t.buf.data _ positive]
  rfl

theorem grows_kept (ready : Ready t) (running : t.phase = .running) (grows : Grows t c) :
    CallKept t c ∧ ((t.write c).phase = .running → Ready (t.write c)) := by
  rcases grows with small | ⟨negative, zero⟩ | ⟨positive, fails⟩
  · have total := narrowed_of_lt _ small
    by_cases empty : t.buf.sz + c.chunk.length = 0
    · have zero : t.buf.sz = 0 := by omega
      refine refused_kept t c ready running (write_null t c ?_ (ready.allocated.mpr zero))
      omega
    · cases yields : c.yields with
      | false =>
          refine refused_kept t c ready running (write_failed t c ?_ yields)
          omega
      | true =>
          obtain ⟨ready', running', -⟩ :=
            taken_kept t c ready running small yields (Nat.pos_of_ne_zero empty)
          refine ⟨fun _ => ?_, fun _ => ready'⟩
          rw [running']
          exact ready'.toGathered
  · exact refused_kept t c ready running (write_null t c negative (ready.allocated.mpr zero))
  · exact refused_kept t c ready running (write_failed t c positive fails)

/-- Every other call is one too many: its bytes do not fit, or the caller frees a buffer that
has been freed. -/
theorem not_kept (ready : Ready t) (running : t.phase = .running) (not : ¬ Grows t c) :
    ¬ CallKept t c := by
  intro kept
  have kept := kept running
  have large : 2 ^ 31 ≤ t.buf.sz + c.chunk.length := Nat.le_of_not_lt fun small => not (.inl small)
  by_cases positive : 0 < narrowed (t.buf.sz + c.chunk.length)
  · cases yields : c.yields with
    | false => exact not (.inr (.inr ⟨positive, yields⟩))
    | true =>
        have beyond := write_beyond t c ready large yields positive
        rw [write, running] at kept
        simp only [beyond] at kept
  · have negative := Int.not_lt.mp positive
    cases pointer : t.buf.data with
    | none => exact not (.inr (.inl ⟨negative, ready.allocated.mp pointer⟩))
    | some p =>
        obtain ⟨h, dangling, dead⟩ := write_dangling t c ready negative p pointer
        have nonempty : ¬ 0 = c.chunk.length := by
          have small := ready.small
          omega
        rw [write, running] at kept
        simp only [dangling, if_neg nonempty] at kept
        obtain ⟨-, h', freed, -⟩ := kept
        rw [pointer, free_dead h p dead] at freed
        cases freed

theorem callKept_iff (ready : t.phase = .running → Ready t) :
    CallKept t c ↔ (t.phase = .running → Grows t c) := by
  by_cases running : t.phase = .running
  · constructor
    · intro kept _
      by_contra not
      exact not_kept t c (ready running) running not kept
    · exact fun grows => (grows_kept t c (ready running) running (grows running)).1
  · exact iff_of_true (fun started => absurd started running)
      (fun started => absurd started running)

theorem ready_write (ready : t.phase = .running → Ready t) (kept : CallKept t c) :
    (t.write c).phase = .running → Ready (t.write c) := by
  by_cases running : t.phase = .running
  · have grows := (callKept_iff t c ready).mp kept running
    exact (grows_kept t c (ready running) running grows).2
  · have same : t.write c = t := by
      rw [write]
      cases phase : t.phase with
      | running => exact absurd phase running
      | aborted | faulted => rfl
    rw [same]
    exact ready

theorem ready_start : Ready start :=
  ⟨⟨rfl, ⟨[], rfl, Nat.le_refl 0, rfl⟩, fun _ _ => rfl⟩, by decide, iff_of_true rfl rfl⟩

end WriteState

/-- The buffer grows without truncation, as long as its size stays an `int` or nothing comes of
the call. -/
theorem buffer_grows_iff (calls : List WriteCall) :
    Runs.Always WriteState.write WriteState.CallKept .start calls ↔
      Runs.Always WriteState.write (fun t c => t.phase = .running → t.Grows c) .start calls :=
  Runs.always_iff (G := fun t => t.phase = .running → t.Ready)
    (fun t c ready => WriteState.callKept_iff t c ready)
    (fun t c ready kept => WriteState.ready_write t c ready kept) .start calls
    (fun _ => WriteState.ready_start)

/-- As much as curl passes on at a time. -/
def piece : WriteCall := ⟨List.replicate 16384 0, true⟩

theorem piece_length : piece.chunk.length = 16384 := List.length_replicate

theorem pieces_ready (n : Nat) (small : n * 16384 < 2 ^ 31) :
    (((List.replicate n piece).foldl WriteState.write .start).Ready ∧
      ((List.replicate n piece).foldl WriteState.write .start).phase = .running) ∧
      ((List.replicate n piece).foldl WriteState.write .start).buf.sz = n * 16384 := by
  induction n with
  | zero => exact ⟨⟨WriteState.ready_start, rfl⟩, rfl⟩
  | succ n ih =>
      rw [Nat.succ_mul] at small
      obtain ⟨⟨ready, running⟩, size⟩ := ih (Nat.lt_of_le_of_lt (Nat.le_add_right _ _) small)
      rw [List.replicate_succ', List.foldl_concat]
      obtain ⟨ready', running', size'⟩ := WriteState.taken_kept _ piece ready running
        (by rw [size, piece_length]; exact small) rfl (by rw [piece_length]; omega)
      refine ⟨⟨ready', running'⟩, ?_⟩
      rw [size', size, piece_length, Nat.succ_mul]

theorem last_not_kept (n : Nat) (small : n * 16384 < 2 ^ 31)
    (large : 2 ^ 31 ≤ n * 16384 + 16384) :
    ¬ Runs.Always WriteState.write WriteState.CallKept .start
      (List.replicate n piece ++ [piece]) := by
  intro kept
  rw [Runs.always_concat] at kept
  obtain ⟨⟨ready, running⟩, size⟩ := pieces_ready n small
  refine WriteState.not_kept _ piece ready running ?_ kept.2
  rw [WriteState.Grows, size, piece_length]
  rintro (less | ⟨-, zero⟩ | ⟨-, fails⟩)
  · exact absurd less (Nat.not_lt.mpr large)
  · omega
  · cases fails

theorem download_dangles :
    ¬ Runs.Always WriteState.write WriteState.CallKept .start
      (List.replicate 131071 piece ++ [piece]) :=
  last_not_kept 131071 (by decide) (by decide)

end RSQLite
