import GatewayLedger.Proofs.Time.Epoch
import GatewayLedger.Proofs.Time.Moment
import GatewayLedger.Proofs.Time.SecondUnits

/-!
# Milliseconds there and back

A number of milliseconds is read to a moment that is exact for some 270 years around 1970 and 15
microseconds off at most elsewhere. The moment has the seconds that it was read from, so what becomes
of the number depends on these alone: it comes back as it was, or loses its last unit.
-/

namespace GatewayLedger.Moment

open Rounding Binary64

variable {k m s : Nat} {n : Int} {negative : Bool}

theorem withSign_add (negative : Bool) (a k : Nat) :
    withSign negative (a + k) = withSign negative a + withSign negative k := by
  cases negative with
  | false => exact Int.natCast_add a k
  | true =>
    simp only [withSign, if_true]
    omega

/-- The microseconds of so many units of a second: the whole seconds, and the nearest number of
microseconds to the rest of them. -/
theorem exists_micros {x : Binary64} (hx : Represents x negative m (2 ^ s)) (hm : m < 2 ^ 53)
    (hs : s ≤ 62) : ∃ whole rest k, x.truncate? = some whole ∧
      (x.fraction.mulNat microsPerSecond).nearest? = some rest ∧
      whole * microsPerSecond + rest = withSign negative k ∧
      IsNearly (m * 10 ^ 6) (2 ^ s) k := by
  have hpos : 0 < 2 ^ s := Nat.two_pow_pos s
  have hrest : m % 2 ^ s < 2 ^ s := Nat.mod_lt _ hpos
  have hdigits : m % 2 ^ s < 2 ^ 53 := (Nat.mod_le _ _).trans_lt hm
  have hbound : m % 2 ^ s * microsPerSecond < 2 ^ 20 * 2 ^ s := by
    unfold microsPerSecond
    omega
  obtain ⟨k, hk, hnearly⟩ := exists_nearest?_ofRatio negative hbound (by omega)
  have hfraction : x.fraction.mulNat microsPerSecond =
      ofRatio negative (m % 2 ^ s * microsPerSecond) (2 ^ s) := by
    rw [hx.fraction hpos]
    exact (represents_ofRatio negative hdigits (by omega)).mulNat hpos _
  refine ⟨_, _, m / 2 ^ s * microsPerSecond + k, hx.truncate? hpos, hfraction ▸ hk, ?_, ?_⟩
  · rw [withSign_add]
    cases negative with
    | false =>
      simp only [withSign, if_false, Bool.false_eq_true]
      push_cast
      ring
    | true =>
      simp only [withSign, if_true]
      push_cast
      ring
  · have hsplit : m * 10 ^ 6 =
        m / 2 ^ s * microsPerSecond * 2 ^ s + m % 2 ^ s * microsPerSecond := by
      unfold microsPerSecond
      have hdivision := Nat.div_add_mod m (2 ^ s)
      calc m * 10 ^ 6 = (2 ^ s * (m / 2 ^ s) + m % 2 ^ s) * 10 ^ 6 := by rw [hdivision]
        _ = m / 2 ^ s * 1000000 * 2 ^ s + m % 2 ^ s * 1000000 := by ring
    rw [hsplit]
    exact hnearly.add_mul _

theorem ofMillis?_eq (h : InSecondPlace n.natAbs s) (ha : n.natAbs < 2 ^ 53) :
    ∃ k, ofMillis? (ofInt n) = ofReading? (epoch + withSign (decide (n < 0)) k) (some 0) ∧
      ReadsTo n.natAbs s k := by
  have hseconds := represents_ofUnits (decide (n < 0)) (secondUnits n.natAbs s) s
  rw [← h.ofInt_divNat ha] at hseconds
  obtain ⟨whole, rest, k, hwhole, hrest, hsum, hnearly⟩ :=
    exists_micros hseconds h.secondUnits_bounds.2 h.le_sixtyTwo
  refine ⟨k, ?_, hnearly⟩
  rw [← hsum, ← add_assoc]
  simp only [ofMillis?, hwhole, hrest, Option.bind_eq_bind, Option.bind_some]

/-! ## There and back -/

/-- A number of milliseconds whose instant lies in the calendar. -/
def InCalendar (n : Int) : Prop := 0 ≤ epoch + 1000 * n ∧ epoch + 1000 * n < span

theorem inCalendar_iff : InCalendar n ↔ -62135596800000 ≤ n ∧ n ≤ 253402300799999 := by
  have hcount : Calendar.dayCount = 3652059 := by decide
  unfold InCalendar epoch span microsPerDay microsPerSecond
  rw [hcount]
  omega

/-- Some place of the seconds is one at which a unit of the thousandfold is lost. -/
def LosesMillisecond (n : Int) : Prop :=
  ∃ s < 63, 2 ^ 52 * 1000 ≤ n.natAbs * 2 ^ s ∧ LosesUnit n.natAbs s

instance (n : Int) : Decidable (LosesMillisecond n) :=
  inferInstanceAs (Decidable (∃ s, s < 63 ∧ _))

theorem losesMillisecond_iff (h : InSecondPlace n.natAbs s) :
    LosesMillisecond n ↔ LosesUnit n.natAbs s := by
  have hs := h.le_sixtyTwo
  have hlow := h.low
  constructor
  · rintro ⟨t, -, hplace, hloses⟩
    have hbelow := hloses.1
    have ht : InPlace n.natAbs 1000 t := ⟨hplace, by omega⟩
    rw [h.unique ht]
    exact hloses
  · exact fun hloses => ⟨s, by omega, hlow, hloses⟩

/-- What becomes of a number of milliseconds that was read. -/
def millisBack (n : Int) : Int := if LosesMillisecond n then n - n.sign else n

theorem withSign_cases (n : Int) (k : Nat) :
    n < 0 ∧ withSign (decide (n < 0)) k = -(k : Int) ∨
      0 ≤ n ∧ withSign (decide (n < 0)) k = k := by
  unfold withSign
  by_cases h : n < 0
  · exact .inl ⟨h, if_pos (decide_eq_true h)⟩
  · exact .inr ⟨by omega, if_neg (by simpa using h)⟩

theorem withSign_millisBack (h : InSecondPlace n.natAbs s) :
    withSign (decide (n < 0)) (if LosesUnit n.natAbs s then n.natAbs - 1 else n.natAbs) =
      millisBack n := by
  have hne : n.natAbs ≠ 0 := by
    intro hzero
    have hlow := h.low
    rw [hzero] at hlow
    omega
  unfold millisBack
  by_cases hloses : LosesUnit n.natAbs s
  · rw [if_pos hloses, if_pos ((losesMillisecond_iff h).mpr hloses)]
    rcases withSign_cases n (n.natAbs - 1) with ⟨hn, hsigned⟩ | ⟨hn, hsigned⟩
    · rw [hsigned, Int.sign_eq_neg_one_of_neg hn]
      omega
    · rw [hsigned, Int.sign_eq_one_of_pos (by omega)]
      omega
  · rw [if_neg hloses, if_neg (mt (losesMillisecond_iff h).mp hloses)]
    rcases withSign_cases n n.natAbs with ⟨hn, hsigned⟩ | ⟨hn, hsigned⟩
    · omega
    · omega

/-- The milliseconds of a moment whose seconds are those of a number of milliseconds. -/
theorem toMillis?_of_hasSecondsOf {m : Moment} (h : InSecondPlace n.natAbs s)
    (hk : HasSecondsOf k n.natAbs s) (hutc : m.IsUtc) (hm : m.instant = epoch + withSign (decide (n < 0)) k) :
    m.toMillis? = some (millisBack n) := by
  have hs := h.le_sixtyTwo
  have hoffset : m.offset = some 0 := hutc
  have hpos : 0 < k := Nat.pos_of_mul_pos_right (a := k) (b := 2 ^ s) (by
    have := hk.low
    omega)
  have hmicros : m.instant - epoch = withSign (decide (n < 0)) k := by omega
  have hsign : decide (m.instant - epoch < 0) = decide (n < 0) := by
    rw [decide_eq_decide, hmicros]
    rcases withSign_cases n k with ⟨hn, hsigned⟩ | ⟨hn, hsigned⟩
    · omega
    · omega
  have hsize : (m.instant - epoch).natAbs = k := by
    rw [hmicros]
    rcases withSign_cases n k with ⟨hn, hsigned⟩ | ⟨hn, hsigned⟩
    · omega
    · omega
  have hseconds : m.epochSeconds? =
      some (ofUnits (decide (n < 0)) (secondUnits n.natAbs s) s) := by
    simp only [epochSeconds?, hoffset, hsign, hsize]
    rw [← hk.units_eq, ← hk.ofRatio_eq (by omega)]
    rfl
  have hthousand := (represents_ofUnits (decide (n < 0)) (secondUnits n.natAbs s) s).mulNat
    (Nat.two_pow_pos s) 1000
  rw [toMillis?, hseconds, Option.bind_eq_bind, Option.bind_some, hthousand,
    h.truncate?_thousandfold, withSign_millisBack h]

theorem millis_zero : ofMillis? (ofInt 0) = some ⟨epoch, some 0, by decide⟩ := by decide +kernel

theorem toMillis?_of_instant_eq_epoch {m : Moment} (hutc : m.IsUtc) (hm : m.instant = epoch) :
    m.toMillis? = some (millisBack 0) := by
  have hoffset : m.offset = some 0 := hutc
  simp only [toMillis?, epochSeconds?, hoffset, hm, sub_self]
  decide +kernel

/-- The very instant of a number of milliseconds. -/
theorem toMillis?_of_instant_eq {m : Moment} (h : InCalendar n) (hutc : m.IsUtc)
    (hm : m.instant = epoch + 1000 * n) : m.toMillis? = some (millisBack n) := by
  obtain ⟨hfirst, hlast⟩ := inCalendar_iff.mp h
  rcases Nat.eq_zero_or_pos n.natAbs with hzero | hpos
  · obtain rfl : n = 0 := Int.natAbs_eq_zero.mp hzero
    exact toMillis?_of_instant_eq_epoch hutc (by omega)
  obtain ⟨s, hs⟩ := exists_inSecondPlace hpos (by omega)
  have hsigned : 1000 * n = withSign (decide (n < 0)) (1000 * n.natAbs) := by
    rcases withSign_cases n (1000 * n.natAbs) with ⟨hn, hsigned⟩ | ⟨hn, hsigned⟩
    · omega
    · omega
  exact toMillis?_of_hasSecondsOf hs hs.hasSecondsOf hutc (hsigned ▸ hm)

theorem exists_ofReading? {i : Int} (h : 0 ≤ i ∧ i < span) :
    ∃ m, ofReading? i (some 0) = some m ∧ m.IsUtc ∧ m.instant = i := by
  have hspan : 0 ≤ i ∧ i.toNat < span := by omega
  refine ⟨⟨i.toNat, some 0, hspan.2⟩, by rw [ofReading?, dif_pos hspan], rfl, ?_⟩
  simp only [instant, Option.getD_some]
  omega

/-- The first moment of the calendar is a whole second, so no number is read to one before it. -/
theorem inCalendar_withSign (h : InCalendar n)
    (hk : ReadsTo n.natAbs s k) (hle : k ≤ 1000 * n.natAbs + 15) :
    0 ≤ epoch + withSign (decide (n < 0)) k ∧ epoch + withSign (decide (n < 0)) k < span := by
  obtain ⟨hfirst, hlast⟩ := inCalendar_iff.mp h
  have hcount : Calendar.dayCount = 3652059 := by decide
  have hepoch : epoch = 62135596800000000 := by decide
  have hspan : span = 315537897600000000 := by
    rw [span, hcount]
    decide
  rw [hepoch, hspan]
  rcases withSign_cases n k with ⟨hn, hsigned⟩ | ⟨hn, hsigned⟩
  · rw [hsigned]
    by_cases hleast : n.natAbs = 1000 * 62135596800
    · rw [hleast] at hk
      have hexact := hk.eq_of_whole
      omega
    · omega
  · rw [hsigned]
    omega

/-- The moment of a number of milliseconds, and what becomes of the number. -/
theorem exists_ofMillis? (h : InCalendar n) :
    ∃ m, ofMillis? (ofInt n) = some m ∧ m.IsUtc ∧ |m.instant - (epoch + 1000 * n)| ≤ 15 ∧
      (n.natAbs < 2 ^ 33 * 1000 → m.instant = epoch + 1000 * n) ∧
      m.toMillis? = some (millisBack n) := by
  obtain ⟨hfirst, hlast⟩ := inCalendar_iff.mp h
  rcases Nat.eq_zero_or_pos n.natAbs with hzero | hpos
  · obtain rfl : n = 0 := Int.natAbs_eq_zero.mp hzero
    exact ⟨_, millis_zero, rfl, by decide, fun _ => by decide,
      toMillis?_of_instant_eq_epoch rfl (by decide)⟩
  obtain ⟨s, hs⟩ := exists_inSecondPlace hpos (by omega)
  obtain ⟨k, hread, hk⟩ := ofMillis?_eq hs (by omega)
  obtain ⟨hle, hge⟩ := hk.near_fifteen hs
  have hinside := inCalendar_withSign h hk hle
  obtain ⟨m, hm, hutc, hinstant⟩ := exists_ofReading? hinside
  refine ⟨m, hread.trans hm, hutc, ?_, ?_,
    toMillis?_of_hasSecondsOf hs (hk.hasSecondsOf hs) hutc hinstant⟩
  · rw [hinstant, abs_le]
    rcases withSign_cases n k with ⟨hn, hsigned⟩ | ⟨hn, hsigned⟩
    · omega
    · omega
  · intro hnear
    have hplace := hs.lt_add_of_lt hnear
    have hexact := hk.eq_of_twenty_le (by omega)
    rw [hinstant]
    rcases withSign_cases n k with ⟨hn, hsigned⟩ | ⟨hn, hsigned⟩
    · omega
    · omega

end GatewayLedger.Moment
