import PartialFractions.Proofs.DecimalScales
import PartialFractions.Proofs.NearestNumbers

/-!
The shortest decimal of a number m · 2 ^ q lies in its interval, and no decimal in the interval has
fewer digits. On each grid of decimals the interval holds a grid point only if it holds one of the
two around the number, and seventeen digits make a grid that is finer than the interval.
-/
namespace PartialFractions.Number

section Intervals

variable {m : ℕ} {q : ℤ} {x y z : ℚ}

theorem InInterval.between (hx : InInterval m q x) (hy : InInterval m q y) (hxz : x ≤ z)
    (hzy : z ≤ y) : InInterval m q z where
  low := hx.low.trans hxz
  high := hzy.trans hy.high
  low_of_odd hodd := (hx.low_of_odd hodd).trans_le hxz
  high_of_odd hodd := hzy.trans_lt (hy.high_of_odd hodd)

/-- In the interval of a number that is no whole one there is no whole number. -/
theorem InInterval.isWhole {n : ℕ} (hx : InInterval m q n) : Binary.isWhole m q = true := by
  rw [Binary.isWhole, decide_eq_true_eq]
  by_cases hq : 0 ≤ q
  · have hone : power 2 (-q) = 1 := by
      rw [power, Int.toNat_of_nonpos (by omega), Nat.pow_eq, pow_zero]
    rw [hone, Nat.mod_one]
  · obtain ⟨den, hden⟩ : ∃ k, power 2 (-q) = k := ⟨_, rfl⟩
    have hpos := two_zpow_pos q
    have hhalf := halfBelow_le m q
    have hunit : (2 : ℚ) ^ q * den = 1 := by
      have hcast := cast_power two_pos q
      rw [hden, power, Int.toNat_of_nonpos (by omega)] at hcast
      exact hcast.symm
    -- in units of 2 ^ q both numbers are natural ones, less than one apart
    have hscaled : (n : ℚ) = (n * den : ℕ) * 2 ^ q := by
      rw [Nat.cast_mul, mul_assoc, mul_comm (den : ℚ), hunit, mul_one]
    have hlow := hx.low
    have hhigh := hx.high
    rw [hscaled] at hlow hhigh
    have hlow' := le_of_mul_le_mul_right hlow hpos
    have hhigh' := le_of_mul_le_mul_right hhigh hpos
    have hle : m < n * den + 1 := by
      have hcast : (m : ℚ) < (n * den : ℕ) + 1 := by linarith
      exact_mod_cast hcast
    have hge : n * den < m + 1 := by
      have hcast : ((n * den : ℕ) : ℚ) < m + 1 := by linarith
      exact_mod_cast hcast
    have heq : m = n * den := by omega
    rw [hden, heq, Nat.mul_mod_left]

end Intervals

namespace Grid

variable {m : ℕ} {q e : ℤ}

/-- The counts of a grid are the values in common units. -/
theorem of_counts (hm : 0 < m) (q e : ℤ) : ∃ c : ℚ, 0 < c ∧
    ((Grid.of m q e).unit : ℚ) = 10 ^ e * c ∧
    ((Grid.of m q e).value : ℚ) = m * 2 ^ q * c ∧
    ((Grid.of m q e).low : ℚ) = (m - halfBelow m q) * 2 ^ q * c ∧
    ((Grid.of m q e).high : ℚ) = (m + 1 / 2) * 2 ^ q * c := by
  have hten := power_pos (b := 10) (by omega) (-e)
  have htwo := power_pos two_pos (2 - q)
  have hscale : ((power 2 (q - 2) * power 10 (-e) : ℕ) : ℚ) =
      2 ^ q / 4 * (power 2 (2 - q) * power 10 (-e)) := by
    rw [Nat.cast_mul, cast_power two_pos (q - 2), neg_sub, Nat.cast_two, zpow_sub₀ two_ne_zero]
    norm_num
    ring
  have hhalf : ((if narrowBelow m q then 4 * m - 1 else 4 * m - 2 : ℕ) : ℚ) =
      4 * (m - halfBelow m q) := by
    unfold halfBelow
    split
    · rw [Nat.cast_sub (by omega)]
      push_cast
      ring
    · rw [Nat.cast_sub (by omega)]
      push_cast
      ring
  refine ⟨power 2 (2 - q) * power 10 (-e), by positivity, ?_, ?_, ?_, ?_⟩
  · change ((power 2 (2 - q) * power 10 e : ℕ) : ℚ) = _
    rw [Nat.cast_mul, cast_power (b := 10) (by omega) e]
    push_cast
    ring
  · change ((4 * m * (power 2 (q - 2) * power 10 (-e)) : ℕ) : ℚ) = _
    rw [Nat.cast_mul, hscale]
    push_cast
    ring
  · change (((if narrowBelow m q then 4 * m - 1 else 4 * m - 2) *
      (power 2 (q - 2) * power 10 (-e)) : ℕ) : ℚ) = _
    rw [Nat.cast_mul, hscale, hhalf]
    ring
  · change (((4 * m + 2) * (power 2 (q - 2) * power 10 (-e)) : ℕ) : ℚ) = _
    rw [Nat.cast_mul, hscale]
    push_cast
    ring

theorem unit_pos (m : ℕ) (q e : ℤ) : 0 < (Grid.of m q e).unit :=
  Nat.mul_pos (power_pos two_pos _) (power_pos (by omega) _)

/-- The grid points that are read back as the number are those in its interval. -/
theorem contains_iff (hm : 0 < m) (n : ℕ) :
    (Grid.of m q e).contains n = true ↔ InInterval m q (n * 10 ^ e) := by
  obtain ⟨c, hc, hunit, -, hlow, hhigh⟩ := of_counts hm q e
  have hpoint : ((n * (Grid.of m q e).unit : ℕ) : ℚ) = n * 10 ^ e * c := by
    rw [Nat.cast_mul, hunit, mul_assoc]
  have hlow_le : (Grid.of m q e).low ≤ n * (Grid.of m q e).unit ↔
      (m - halfBelow m q) * 2 ^ q ≤ n * 10 ^ e := by
    rw [← Nat.cast_le (α := ℚ), hpoint, hlow, mul_le_mul_iff_of_pos_right hc]
  have hlow_lt : (Grid.of m q e).low < n * (Grid.of m q e).unit ↔
      (m - halfBelow m q) * 2 ^ q < n * 10 ^ e := by
    rw [← Nat.cast_lt (α := ℚ), hpoint, hlow, mul_lt_mul_iff_of_pos_right hc]
  have hhigh_le : n * (Grid.of m q e).unit ≤ (Grid.of m q e).high ↔
      n * 10 ^ e ≤ (m + 1 / 2 : ℚ) * 2 ^ q := by
    rw [← Nat.cast_le (α := ℚ), hpoint, hhigh, mul_le_mul_iff_of_pos_right hc]
  have hhigh_lt : n * (Grid.of m q e).unit < (Grid.of m q e).high ↔
      n * 10 ^ e < (m + 1 / 2 : ℚ) * 2 ^ q := by
    rw [← Nat.cast_lt (α := ℚ), hpoint, hhigh, mul_lt_mul_iff_of_pos_right hc]
  have hclosed : (Grid.of m q e).closed = true ↔ m % 2 = 0 := decide_eq_true_iff
  unfold contains
  split
  · rename_i heven
    rw [hclosed] at heven
    rw [Bool.and_eq_true, decide_eq_true_eq, decide_eq_true_eq, hlow_le, hhigh_le]
    exact ⟨fun h => ⟨h.1, h.2, fun hodd => by omega, fun hodd => by omega⟩,
      fun h => ⟨h.low, h.high⟩⟩
  · rename_i hodd
    rw [hclosed] at hodd
    rw [Bool.and_eq_true, decide_eq_true_eq, decide_eq_true_eq, hlow_lt, hhigh_lt]
    exact ⟨fun h => ⟨h.1.le, h.2.le, fun _ => h.1, fun _ => h.2⟩,
      fun h => ⟨h.low_of_odd (by omega), h.high_of_odd (by omega)⟩⟩

/-- The number lies between two neighbouring grid points. -/
theorem floor_bounds (hm : 0 < m) (q e : ℤ) {n : ℕ}
    (hn : (Grid.of m q e).value / (Grid.of m q e).unit = n) :
    n * 10 ^ e ≤ (m * 2 ^ q : ℚ) ∧ (m : ℚ) * 2 ^ q < (n + 1 : ℕ) * 10 ^ e := by
  obtain ⟨c, hc, hunit, hvalue, -⟩ := of_counts hm q e
  have hlow : n * (Grid.of m q e).unit ≤ (Grid.of m q e).value := by
    rw [← hn]
    exact Nat.div_mul_le_self _ _
  have hhigh : (Grid.of m q e).value < (n + 1) * (Grid.of m q e).unit := by
    rw [← hn]
    exact Nat.lt_mul_of_div_lt (Nat.lt_succ_self _) (unit_pos m q e)
  rw [← Nat.cast_le (α := ℚ), Nat.cast_mul, hunit, hvalue, ← mul_assoc,
    mul_le_mul_iff_of_pos_right hc] at hlow
  rw [← Nat.cast_lt (α := ℚ), Nat.cast_mul, hunit, hvalue, ← mul_assoc,
    mul_lt_mul_iff_of_pos_right hc] at hhigh
  exact ⟨hlow, hhigh⟩

variable {g : Grid} {n : ℕ}

/-- What is taken is one of the two grid points around the number. -/
theorem nearest?_eq_some (h : g.nearest? = some n) :
    g.contains n = true ∧ (n = g.value / g.unit ∨ n = g.value / g.unit + 1) := by
  unfold nearest? at h
  dsimp only at h
  split at h
  · rename_i hbelow habove
    obtain rfl := Option.some.inj h
    rcases roundEven_cases g.value g.unit with hround | hround <;> rw [hround]
    · exact ⟨hbelow, Or.inl rfl⟩
    · exact ⟨habove, Or.inr rfl⟩
  · rename_i hbelow habove
    obtain rfl := Option.some.inj h
    exact ⟨hbelow, Or.inl rfl⟩
  · rename_i hbelow habove
    obtain rfl := Option.some.inj h
    exact ⟨habove, Or.inr rfl⟩
  · cases h

/-- One of the two grid points around the value is enough. -/
theorem isSome_nearest? (h : g.contains (g.value / g.unit) = true ∨
    g.contains (g.value / g.unit + 1) = true) : g.nearest?.isSome = true := by
  unfold nearest?
  dsimp only
  split
  · rfl
  · rfl
  · rfl
  · rename_i hbelow habove
    rw [hbelow, habove] at h
    simp at h

variable {m : ℕ} {q e : ℤ}

/-- If any grid point is in the interval, so is one of the two around the number. -/
theorem isSome_nearest?_of_inInterval (hm : 0 < m) (n : ℕ) (h : InInterval m q (n * 10 ^ e)) :
    (Grid.of m q e).nearest?.isSome = true := by
  apply isSome_nearest?
  obtain ⟨below, hbelow⟩ : ∃ k, (Grid.of m q e).value / (Grid.of m q e).unit = k := ⟨_, rfl⟩
  obtain ⟨hlow, hhigh⟩ := floor_bounds hm q e hbelow
  have hpos := ten_zpow_pos e
  have hself := inInterval_self m q
  rw [hbelow, contains_iff hm, contains_iff hm]
  by_cases hle : n ≤ below
  · have hcast : (n : ℚ) ≤ below := by exact_mod_cast hle
    exact Or.inl (h.between hself (mul_le_mul_of_nonneg_right hcast hpos.le) hlow)
  · have hcast : ((below + 1 : ℕ) : ℚ) ≤ n := by exact_mod_cast (by omega : below + 1 ≤ n)
    exact Or.inr (hself.between h hhigh.le (mul_le_mul_of_nonneg_right hcast hpos.le))

end Grid

section Counts

variable {m : ℕ} {q e : ℤ} {count : ℕ}

/-- A decimal that is taken is in the interval and has as many digits as asked for, but for a power
of ten. -/
theorem withDigits?_eq_some (hm : 0 < m) (hcount : 0 < count) {d : Decimal}
    (h : withDigits? m q count = some d) :
    InInterval m q d.value ∧ 0 < d.digits ∧ d.digits ≤ 10 ^ count := by
  unfold withDigits? at h
  dsimp only at h
  obtain ⟨n, hn, rfl⟩ := Option.map_eq_some_iff.mp h
  obtain ⟨e, he⟩ : ∃ e, binaryScale m q - count = e := ⟨_, rfl⟩
  rw [he] at hn ⊢
  obtain ⟨hcontains, hcases⟩ := Grid.nearest?_eq_some hn
  obtain ⟨below, hbelow⟩ : ∃ k, (Grid.of m q e).value / (Grid.of m q e).unit = k := ⟨_, rfl⟩
  obtain ⟨hlow, hhigh⟩ := Grid.floor_bounds hm q e hbelow
  obtain ⟨hfirst, hlast⟩ := binaryScale_counts hm hcount he
  obtain ⟨hbelow_ge, hbelow_lt⟩ := floor_counts hlow hhigh hfirst hlast
  have hten : 0 < 10 ^ (count - 1) := Nat.pow_pos (by omega)
  rw [hbelow] at hcases
  refine ⟨(Grid.contains_iff hm n).mp hcontains, ?_, ?_⟩
  · change 0 < n
    omega
  · change n ≤ 10 ^ count
    omega

theorem isSome_withDigits?_eq (he : binaryScale m q - count = e) :
    (withDigits? m q count).isSome = (Grid.of m q e).nearest?.isSome := by
  rw [← he]
  exact Option.isSome_map

/-- If a decimal with so many digits is in the interval, one is found. -/
theorem isSome_withDigits? (hm : 0 < m) {n : ℕ} {k : ℤ} (h : InInterval m q (n * 10 ^ k))
    (hn : digitCount n = count) : (withDigits? m q count).isSome = true := by
  obtain ⟨e, he⟩ : ∃ e, binaryScale m q - count = e := ⟨_, rfl⟩
  rw [isSome_withDigits?_eq he]
  by_cases hle : e ≤ k
  · -- the decimal is a point of the grid
    have hexp : k = e + (k - e).toNat := by omega
    rw [hexp, ten_zpow_add, ← mul_assoc] at h
    apply Grid.isSome_nearest?_of_inInterval hm (n * 10 ^ (k - e).toNat)
    exact_mod_cast h
  · -- the decimal is below the leading power of ten, which is then in the interval
    have hcount : 0 < count := hn ▸ digitCount_pos n
    obtain ⟨hfirst, -⟩ := binaryScale_counts hm hcount he
    have hdigits : (n : ℚ) ≤ 10 ^ count := by
      exact_mod_cast hn ▸ (lt_pow_digitCount n).le
    have hbelow : (n : ℚ) * 10 ^ k ≤ 10 ^ (count - 1) * 10 ^ e :=
      calc (n : ℚ) * 10 ^ k ≤ 10 ^ count * 10 ^ k :=
            mul_le_mul_of_nonneg_right hdigits (ten_zpow_pos k).le
        _ = 10 ^ (k + count) := (ten_zpow_add k count).symm
        _ ≤ 10 ^ (e + (count - 1 : ℕ)) := ten_zpow_le (by omega)
        _ = 10 ^ (count - 1) * 10 ^ e := ten_zpow_add e (count - 1)
    have hpower := h.between (inInterval_self m q) hbelow hfirst
    apply Grid.isSome_nearest?_of_inInterval hm (10 ^ (count - 1))
    exact_mod_cast hpower

/-- With seventeen digits the step is smaller than the interval. -/
theorem isSome_withDigits?_seventeen (hm : 0 < m) (hlt : m < 2 ^ 53) :
    (withDigits? m q 17).isSome = true := by
  obtain ⟨e, he⟩ : ∃ e, binaryScale m q - (17 : ℕ) = e := ⟨_, rfl⟩
  have hfirst : (10 : ℚ) ^ 16 * 10 ^ e ≤ m * 2 ^ q := (binaryScale_counts hm (by omega) he).1
  rw [isSome_withDigits?_eq he]
  apply Grid.isSome_nearest?
  obtain ⟨below, hbelow⟩ : ∃ k, (Grid.of m q e).value / (Grid.of m q e).unit = k := ⟨_, rfl⟩
  obtain ⟨hlow, hhigh⟩ := Grid.floor_bounds hm q e hbelow
  rw [hbelow, Grid.contains_iff hm, Grid.contains_iff hm]
  have hpos := two_zpow_pos q
  have hself := inInterval_self m q
  have hstep : (10 : ℚ) ^ e < (1 / 2 + halfBelow m q) * 2 ^ q := by
    rcases halfBelow_cases m q with ⟨rfl, -, hh⟩ | ⟨-, hh⟩ <;> rw [hh]
    · push_cast at hfirst
      linarith
    · have hcast : (m : ℚ) ≤ 2 ^ 53 := by exact_mod_cast hlt.le
      have hmul := mul_le_mul_of_nonneg_right hcast hpos.le
      linarith
  by_cases hin : (m - halfBelow m q) * 2 ^ q < below * 10 ^ e
  · left
    exact ⟨hin.le, hlow.trans hself.high, fun _ => hin,
      fun hodd => hlow.trans_lt (hself.high_of_odd hodd)⟩
  · right
    have habove : ((below + 1 : ℕ) : ℚ) * 10 ^ e < (m + 1 / 2) * 2 ^ q := by
      push_cast
      linarith
    have hbeyond := hself.low.trans_lt hhigh
    exact ⟨hbeyond.le, habove.le, fun _ => hbeyond, fun _ => habove⟩

/-- A search finds the first number that has a result. -/
theorem findSome?_range {α : Type} {f : ℕ → Option α} {n : ℕ} (h : ∃ i < n, (f i).isSome = true) :
    ∃ i a, i < n ∧ f i = some a ∧ (List.range n).findSome? f = some a ∧ ∀ j < i, f j = none := by
  induction n with
  | zero =>
    obtain ⟨i, hi, -⟩ := h
    omega
  | succ n ih =>
    rw [List.range_succ, List.findSome?_append]
    by_cases hbefore : ∃ i < n, (f i).isSome = true
    · obtain ⟨i, a, hi, ha, hfound, hnone⟩ := ih hbefore
      exact ⟨i, a, by omega, ha, by rw [hfound, Option.some_or], hnone⟩
    · have hnone : ∀ j < n, f j = none := by
        intro j hj
        by_contra hsome
        exact hbefore ⟨j, hj, Option.isSome_iff_ne_none.mpr hsome⟩
      obtain ⟨i, hi, hsome⟩ := h
      obtain rfl : i = n := by
        by_contra hne
        exact hbefore ⟨i, by omega, hsome⟩
      obtain ⟨a, ha⟩ := Option.isSome_iff_exists.mp hsome
      have hskip : (List.range i).findSome? f = none :=
        List.findSome?_eq_none_iff.mpr fun j hj => hnone j (List.mem_range.mp hj)
      exact ⟨i, a, by omega, ha, by simp [hskip, ha], hnone⟩

/-- The least count of digits for which a decimal is in the interval. -/
theorem exists_withDigits? (hm : 0 < m) (hlt : m < 2 ^ 53) : ∃ count d,
    0 < count ∧ withDigits? m q count = some d ∧ shortest m q = d.strip ∧
      ∀ c, 0 < c → c < count → withDigits? m q c = none := by
  have hsome : ∃ i < 17, (withDigits? m q (i + 1)).isSome = true :=
    ⟨16, by omega, isSome_withDigits?_seventeen hm hlt⟩
  obtain ⟨i, d, -, hd, hfound, hnone⟩ := findSome?_range hsome
  refine ⟨i + 1, d, by omega, hd, ?_, ?_⟩
  · rw [shortest, hfound, Option.getD_some]
  · intro c hpos hc
    obtain ⟨j, rfl⟩ := Nat.exists_eq_add_of_le' hpos
    exact hnone j (by omega)

end Counts

section Shortest

variable {m : ℕ} {q : ℤ}

theorem inInterval_shortest (hm : 0 < m) (hlt : m < 2 ^ 53) :
    InInterval m q (shortest m q).value := by
  obtain ⟨count, d, hcount, hd, hshortest, -⟩ := exists_withDigits? (q := q) hm hlt
  rw [hshortest, Decimal.value_strip]
  exact (withDigits?_eq_some hm hcount hd).1

/-- No decimal in the interval has fewer digits. -/
theorem digitCount_shortest_le (hm : 0 < m) (hlt : m < 2 ^ 53) {n : ℕ} {k : ℤ}
    (h : InInterval m q (n * 10 ^ k)) : digitCount (shortest m q).digits ≤ digitCount n := by
  obtain ⟨count, d, hcount, hd, hshortest, hleast⟩ := exists_withDigits? (q := q) hm hlt
  obtain ⟨-, hpos, hle⟩ := withDigits?_eq_some hm hcount hd
  have hfound := isSome_withDigits? hm h rfl
  have hcount_le : count ≤ digitCount n := by
    by_contra hmore
    rw [hleast _ (digitCount_pos n) (by omega)] at hfound
    cases hfound
  rw [hshortest]
  rcases Nat.lt_or_eq_of_le hle with hlt | heq
  · have hd' := (digitCount_le_iff hcount).mpr hlt
    have hstrip := Decimal.digitCount_strip_le hpos rfl
    omega
  · -- a power of ten has one digit once its zeros are taken away
    have hvalue : d.value = (1 : ℕ) * 10 ^ (d.exponent + count) := by
      rw [Decimal.value, heq, ten_zpow_add]
      push_cast
      ring
    exact (Decimal.digitCount_strip_le hpos hvalue).trans (digitCount_pos n)

end Shortest

end PartialFractions.Number
