import RSQLite.Http.Alive
import Mathlib.Algebra.Order.Group.Int

/-!
The number of pages that the cache of a remote file may hold. `http_probe_meta()` multiplies
the megabytes out in 64 bits, divides by the page size, and narrows the quotient to `int`
before it clamps it.
-/
namespace RSQLite

section Arithmetic

/-- The pages that fit in this many megabytes. -/
def wholePages (cacheMb : Int) (pageSize : Nat) : Int := cacheMb * 2 ^ 20 / pageSize

/-- `if(cap < 2) cap = 2; if(cap > 2048) cap = 2048;` -/
def clampedPages (pages : Int) : Int := min 2048 (max 2 pages)

theorem headerPageSize_dvd (header : Bytes) : headerPageSize header ∣ 2 ^ 20 := by
  obtain ⟨atLeast, atMost, power⟩ := headerPageSize_valid header
  have some : headerPageSize header ≠ 0 := by omega
  obtain ⟨k, isPower⟩ := (Nat.and_sub_one_eq_zero_iff_isPowerOfTwo some).mp power
  rw [isPower] at atMost ⊢
  exact Nat.pow_dvd_pow 2 ((Nat.pow_le_pow_iff_right (by decide)).mp
    (Nat.le_trans atMost (show 65536 ≤ 2 ^ 20 by decide)))

/-- What wraps around in a product is a multiple of what its quotient is reduced by. -/
theorem tdiv_bmod_bmod (a : Int) {d n c : Nat} (positive : 0 < d) (divides : c ∣ n) :
    (((a * d).bmod (n * d)).tdiv d).bmod c = a.bmod c := by
  obtain ⟨m, rfl⟩ := divides
  have factor : (a * d).bmod (c * m * d) = (a - c * (m * (a * d).bdiv (c * m * d))) * d := by
    rw [Int.bmod_eq_self_sub_mul_bdiv]
    push_cast
    ring
  rw [factor, Int.mul_tdiv_cancel _ (by omega), Int.sub_mul_bmod_self_left]

theorem kilobytes_toInt (cacheMb : Int64) :
    (cacheMb * 1024).toInt = (cacheMb.toInt * 1024).bmod (2 ^ 64) := by
  have thousand : (1024 : Int64).toInt = 1024 := by decide
  rw [Int64.toInt_mul, thousand]

theorem bytes_toInt (cacheMb : Int64) :
    (cacheMb * 1024 * 1024).toInt = (cacheMb.toInt * 2 ^ 20).bmod (2 ^ 64) := by
  have thousand : (1024 : Int64).toInt = 1024 := by decide
  rw [Int64.toInt_mul, kilobytes_toInt, thousand, Int.bmod_mul_bmod, Int.mul_assoc]
  rfl

theorem quotient_toInt (cacheMb : Int64) {pageSize : Nat} (small : pageSize < 2 ^ 63) :
    (cacheMb * 1024 * 1024 / Int64.ofNat pageSize).toInt =
      ((cacheMb.toInt * 2 ^ 20).bmod (2 ^ 64)).tdiv pageSize := by
  have size : (Int64.ofNat pageSize).toInt = pageSize := Int64.toInt_ofNat_of_lt small
  have other : Int64.ofNat pageSize ≠ -1 := by
    intro same
    rw [same] at size
    exact absurd size (by simp)
  rw [Int64.toInt_div_of_ne_right _ _ other, size, bytes_toInt]

variable {pageSize : Nat} (divides : pageSize ∣ 2 ^ 20)
include divides

theorem pageSize_pos : 0 < pageSize := Nat.pos_of_dvd_of_pos divides (by decide)

theorem pageSize_le : pageSize ≤ 2 ^ 20 := Nat.le_of_dvd (by decide) divides

theorem wholePages_mul (cacheMb : Int) :
    wholePages cacheMb pageSize * pageSize = cacheMb * 2 ^ 20 := by
  refine Int.ediv_mul_cancel (Int.dvd_mul_of_dvd_right ?_)
  exact_mod_cast divides

theorem narrowed_toInt (cacheMb : Int64) :
    (cacheMb * 1024 * 1024 / Int64.ofNat pageSize).toInt32.toInt =
      (wholePages cacheMb.toInt pageSize).bmod (2 ^ 32) := by
  have small : pageSize < 2 ^ 63 := Nat.lt_of_le_of_lt (pageSize_le divides) (by decide)
  have product := wholePages_mul divides cacheMb.toInt
  obtain ⟨perMb, whole⟩ := divides
  have words : 2 ^ 64 = perMb * 2 ^ 44 * pageSize := by
    rw [Nat.mul_right_comm, Nat.mul_comm perMb, ← whole]
    rfl
  rw [Int64.toInt_toInt32, quotient_toInt cacheMb small, ← product, words]
  exact tdiv_bmod_bmod _ (pageSize_pos ⟨perMb, whole⟩) ⟨perMb * 2 ^ 12, by ring⟩

theorem configuredCapacity_eq (cacheMb : Int64) :
    (configuredCapacity cacheMb pageSize : Int) =
      clampedPages ((wholePages cacheMb.toInt pageSize).bmod (2 ^ 32)) := by
  rw [configuredCapacity, narrowed_toInt divides, clampedPages]
  split
  · omega
  · split <;> omega

theorem wholePages_lt (cacheMb : Int) :
    wholePages cacheMb pageSize < 2 ^ 31 ↔ cacheMb < 2048 * pageSize := by
  have positive : (0 : Int) < pageSize := Int.natCast_pos.mpr (pageSize_pos divides)
  rw [← Int.mul_lt_mul_right positive, wholePages_mul divides]
  omega

theorem wholePages_mono {smaller larger : Int} (le : smaller ≤ larger) :
    wholePages smaller pageSize ≤ wholePages larger pageSize :=
  Int.ediv_le_ediv (Int.natCast_pos.mpr (pageSize_pos divides)) (by omega)

omit divides

theorem wholePages_nonneg {cacheMb : Int} (positive : 0 < cacheMb) (pageSize : Nat) :
    0 ≤ wholePages cacheMb pageSize :=
  Int.ediv_nonneg (by omega) (Int.natCast_nonneg _)

theorem clampedPages_mono {smaller larger : Int} (le : smaller ≤ larger) :
    clampedPages smaller ≤ clampedPages larger := by
  rw [clampedPages, clampedPages]
  omega

theorem clampedPages_bmod_le {pages : Int} (nonneg : 0 ≤ pages) :
    clampedPages (pages.bmod (2 ^ 32)) ≤ clampedPages pages := by
  rw [clampedPages, clampedPages, Int.bmod_def]
  omega

theorem clampedPages_bmod_eq {pages : Int} (nonneg : 0 ≤ pages) :
    clampedPages (pages.bmod (2 ^ 32)) = clampedPages pages ↔
      pages < 2 ^ 31 ∨ (2048 ≤ pages % 2 ^ 32 ∧ pages % 2 ^ 32 < 2 ^ 31) := by
  rw [clampedPages, clampedPages, Int.bmod_def]
  omega

end Arithmetic

/-- No product overflows, and the quotient is an `int`. -/
structure Unwrapped (cacheMb : Int64) (pageSize : Nat) : Prop where
  kilobytes : (cacheMb * 1024).toInt = cacheMb.toInt * 1024
  bytes : (cacheMb * 1024 * 1024).toInt = cacheMb.toInt * 1024 * 1024
  pages : (cacheMb * 1024 * 1024 / Int64.ofNat pageSize).toInt32.toInt =
    (cacheMb * 1024 * 1024 / Int64.ofNat pageSize).toInt

theorem quotient_exact {cacheMb : Int64} {pageSize : Nat} (divides : pageSize ∣ 2 ^ 20)
    (positive : 0 < cacheMb.toInt)
    (product : (cacheMb.toInt * 2 ^ 20).bmod (2 ^ 64) = cacheMb.toInt * 2 ^ 20) :
    (cacheMb * 1024 * 1024 / Int64.ofNat pageSize).toInt = wholePages cacheMb.toInt pageSize := by
  have small : pageSize < 2 ^ 63 := Nat.lt_of_le_of_lt (pageSize_le divides) (by decide)
  rw [quotient_toInt cacheMb small, product, Int.tdiv_eq_ediv_of_nonneg (by omega), wholePages]

/-- Whatever overflows is so large that the quotient does not fit either. -/
theorem unwrapped_iff {cacheMb : Int64} {pageSize : Nat} (divides : pageSize ∣ 2 ^ 20)
    (positive : 0 < cacheMb.toInt) :
    Unwrapped cacheMb pageSize ↔ cacheMb.toInt < 2048 * pageSize := by
  rw [← wholePages_lt divides]
  constructor
  · intro unwrapped
    have product : (cacheMb.toInt * 2 ^ 20).bmod (2 ^ 64) = cacheMb.toInt * 2 ^ 20 := by
      rw [← bytes_toInt, unwrapped.bytes]
      omega
    have narrowed := unwrapped.pages
    rw [narrowed_toInt divides, quotient_exact divides positive product] at narrowed
    rw [← narrowed]
    exact Int.bmod_lt (by decide)
  · intro few
    have bound : cacheMb.toInt < 2 ^ 31 := by
      have less := (wholePages_lt divides cacheMb.toInt).mp few
      have le := pageSize_le divides
      omega
    have product : (cacheMb.toInt * 2 ^ 20).bmod (2 ^ 64) = cacheMb.toInt * 2 ^ 20 :=
      Int.bmod_eq_of_le (by omega) (by omega)
    refine ⟨?_, ?_, ?_⟩
    · rw [kilobytes_toInt]
      exact Int.bmod_eq_of_le (by omega) (by omega)
    · rw [bytes_toInt, product]
      omega
    · have nonneg := wholePages_nonneg positive pageSize
      rw [narrowed_toInt divides, quotient_exact divides positive product]
      exact Int.bmod_eq_of_le (by omega) (by omega)

variable (server : Server)

/-- The cache has been given as many pages as fit, and no less than a smaller setting gives
it. -/
structure Sized (env : Environment) (s : HttpState) (cacheMb : Int64) (s' : HttpState) :
    Prop where
  capacity : (s'.file.cacheCapacity : Int) =
    clampedPages (wholePages cacheMb.toInt s'.file.pageSize)
  monotone : ∀ smaller s₁, 0 < smaller → smaller ≤ cacheMb →
    httpProbeMeta server { env with cacheMb := some smaller } s = (.ok, s₁) →
      s₁.file.cacheCapacity ≤ s'.file.cacheCapacity

theorem httpEnvInt64_positive {cacheMb : Int64} (positive : 0 < cacheMb) (defval : Int64) :
    httpEnvInt64 (some cacheMb) defval = cacheMb := by
  rw [Int64.lt_iff_toInt_lt] at positive
  refine if_neg fun le => ?_
  rw [Int64.le_iff_toInt_le] at le
  omega

variable {server} {env : Environment} {s s' : HttpState} {cacheMb : Int64}
variable {code : Nat} {header : Bytes} {total : Int}

theorem probe_sizes (set : env.cacheMb = some cacheMb) (positive : 0 < cacheMb)
    (unprobed : s.file.haveMeta = false)
    (answer : server.range (s.requests + 1) 0 31 = .answered code header total)
    (probe : httpProbeMeta server env s = (.ok, s')) :
    s'.file.pageSize = headerPageSize header ∧
      s'.file.cacheCapacity = configuredCapacity cacheMb (headerPageSize header) := by
  have ends := httpProbeMeta_ends server env s
  rw [probe] at ends
  cases ends with
  | before probed => exact absurd (unprobed.symm.trans probed) (by decide)
  | now _ code' header' total' answer' =>
      rw [answer] at answer'
      cases answer'
      refine ⟨rfl, ?_⟩
      change configuredCapacity (httpEnvInt64 env.cacheMb 4) _ = _
      rw [set, httpEnvInt64_positive positive]

/-- An exact capacity is never exceeded by that of a smaller setting, exact or not. -/
theorem sized_iff (set : env.cacheMb = some cacheMb) (positive : 0 < cacheMb)
    (unprobed : s.file.haveMeta = false)
    (answer : server.range (s.requests + 1) 0 31 = .answered code header total)
    (probe : httpProbeMeta server env s = (.ok, s')) :
    Sized server env s cacheMb s' ↔
      (s'.file.cacheCapacity : Int) = clampedPages (wholePages cacheMb.toInt s'.file.pageSize) := by
  constructor
  · exact fun sized => sized.capacity
  · intro capacity
    refine ⟨capacity, ?_⟩
    intro smaller s₁ positive₁ le probe₁
    have divides := headerPageSize_dvd header
    have size := (probe_sizes set positive unprobed answer probe).1
    have configured := (probe_sizes rfl positive₁ unprobed answer probe₁).2
    have nonneg : 0 ≤ wholePages smaller.toInt (headerPageSize header) :=
      wholePages_nonneg (Int64.lt_iff_toInt_lt.mp positive₁) _
    have le' : (s₁.file.cacheCapacity : Int) ≤ s'.file.cacheCapacity :=
      calc (s₁.file.cacheCapacity : Int)
        _ = clampedPages ((wholePages smaller.toInt (headerPageSize header)).bmod (2 ^ 32)) := by
          rw [configured, configuredCapacity_eq divides]
        _ ≤ clampedPages (wholePages smaller.toInt (headerPageSize header)) :=
          clampedPages_bmod_le nonneg
        _ ≤ clampedPages (wholePages cacheMb.toInt (headerPageSize header)) :=
          clampedPages_mono (wholePages_mono divides (Int64.le_iff_toInt_le.mp le))
        _ = s'.file.cacheCapacity := by rw [capacity, size]
    exact_mod_cast le'

/-- The cache is sized in exact arithmetic exactly if the setting is below 2048 pages in
megabytes. A larger setting is still given 2048 pages exactly if what is left of the quotient
in an `int` is at least that. -/
theorem probe_capacity_iff (set : env.cacheMb = some cacheMb) (positive : 0 < cacheMb)
    (unprobed : s.file.haveMeta = false)
    (answer : server.range (s.requests + 1) 0 31 = .answered code header total)
    (probe : httpProbeMeta server env s = (.ok, s')) :
    (Sized server env s cacheMb s' ∧ Unwrapped cacheMb s'.file.pageSize ↔
      cacheMb.toInt < 2048 * headerPageSize header) ∧
    (Sized server env s cacheMb s' ↔ cacheMb.toInt < 2048 * headerPageSize header ∨
      (2048 ≤ wholePages cacheMb.toInt (headerPageSize header) % 2 ^ 32 ∧
        wholePages cacheMb.toInt (headerPageSize header) % 2 ^ 32 < 2 ^ 31)) := by
  obtain ⟨size, configured⟩ := probe_sizes set positive unprobed answer probe
  have divides := headerPageSize_dvd header
  have positive' : 0 < cacheMb.toInt := Int64.lt_iff_toInt_lt.mp positive
  have value : Sized server env s cacheMb s' ↔ cacheMb.toInt < 2048 * headerPageSize header ∨
      (2048 ≤ wholePages cacheMb.toInt (headerPageSize header) % 2 ^ 32 ∧
        wholePages cacheMb.toInt (headerPageSize header) % 2 ^ 32 < 2 ^ 31) := by
    rw [sized_iff set positive unprobed answer probe, configured, configuredCapacity_eq divides,
      size, clampedPages_bmod_eq (wholePages_nonneg positive' _), wholePages_lt divides]
  refine ⟨?_, value⟩
  rw [value, size, unwrapped_iff divides positive']
  exact ⟨And.right, fun less => ⟨.inl less, less⟩⟩

/-- `RSQLITE_HTTP_CACHE_MB=4`. -/
def fourMegabytes : Environment := ⟨none, some 4, none⟩

theorem fourMegabytes_sized :
    Sized (endlessServer fun _ => 0) fourMegabytes (unusedFile fourMegabytes) 4
        (probedEndless fourMegabytes fun _ => 0) ∧
      Unwrapped 4 (probedEndless fourMegabytes fun _ => 0).file.pageSize := by
  have less : Int64.toInt 4 < 2048 * headerPageSize ((List.range' 0 32).map fun _ => 0) := by
    decide
  exact (probe_capacity_iff rfl (by decide) rfl rfl
    (probedEndless_probe fourMegabytes fun _ => 0)).1.mpr less

/-- `RSQLITE_HTTP_CACHE_MB=8388608`. -/
def hugeCache : Environment := ⟨none, some 8388608, none⟩

/-- 8 terabytes are 2^31 pages of 4096 bytes, which is a negative `int`: there is room for 2
pages. -/
theorem hugeCache_wraps :
    httpProbeMeta (endlessServer fun _ => 0) hugeCache (unusedFile hugeCache) =
      (.ok, probedEndless hugeCache fun _ => 0) ∧
    (probedEndless hugeCache fun _ => 0).file.pageSize = 4096 ∧
    (probedEndless hugeCache fun _ => 0).file.cacheCapacity = 2 ∧
    ¬ Sized (endlessServer fun _ => 0) hugeCache (unusedFile hugeCache) 8388608
        (probedEndless hugeCache fun _ => 0) := by
  refine ⟨probedEndless_probe _ _, by decide, by decide, ?_⟩
  intro sized
  exact absurd sized.capacity (by decide)

end RSQLite
