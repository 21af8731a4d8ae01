import GatewayLedger.Proofs.Number.Printed
import GatewayLedger.Record.Status

/-!
# Numbers that statuses denote

An integer denotes itself, and a number or a text whose characters spell a literal denotes the value
of the literal. The code of a status is the number denoted, if that is an integer, however it is
spelled: as in `6`, `+06.0` or `60E-1`. Deposits and withdrawals look it up in their table. An integer
that no memory can hold when it is written out has neither code nor status.
-/

namespace GatewayLedger

open Numeral

namespace Value

/-- The text in which a number may be spelled. -/
def spelling? : Value → Option String
  | float x => some x.text
  | decimal n => some n.text
  | text s => some s
  | _ => none

inductive Denotes : Value → ℚ → Prop
  | int (n : Int) : Denotes (.int n) n
  | spelled {v : Value} {s : String} {l : Literal} (hs : v.spelling? = some s)
      (hl : l.IsSpelledBy s) (h : l.InRange) : Denotes v l.value

/-- An integer, a finite number or a text. -/
inductive MayDenote : Value → Prop
  | int (n : Int) : MayDenote (.int n)
  | float (negative : Bool) (m : Nat) (e : Int) : MayDenote (.float (.finite negative m e))
  | decimal (d : Decimal) : MayDenote (.decimal (.finite d))
  | text (s : String) : MayDenote (.text s)

variable {v : Value} {s : String} {l : Literal} {d : Decimal}

theorem mayDenote_of_isSpelledBy (hs : v.spelling? = some s) (hl : l.IsSpelledBy s) :
    v.MayDenote := by
  -- the words for infinity and for no number have letters that are outside literals
  cases v with
  | float x =>
    obtain rfl : x.text = s := Option.some.inj hs
    have hn : 'n' ∉ x.text.toList := hl.not_mem (by decide)
    cases x with
    | finite negative m e => exact .float negative m e
    | notNumber => exact absurd (by decide) hn
    | infinite negative => exact absurd (by cases negative <;> decide) hn
  | decimal n =>
    obtain rfl : n.text = s := Option.some.inj hs
    cases n with
    | finite d => exact .decimal d
    | infinite negative =>
      have hn : 'n' ∉ (Numeral.infinite negative).text.toList := hl.not_mem (by decide)
      exact absurd (by cases negative <;> decide) hn
    | notNumber negative signaling payload =>
      have hn : 'N' ∉ (Numeral.notNumber negative signaling payload).text.toList :=
        hl.not_mem (by decide)
      refine absurd ?_ hn
      rw [Numeral.text, String.toList_append]
      apply List.mem_append_left
      cases negative <;> cases signaling <;> decide
  | text t => exact .text t
  | _ => cases hs

theorem Denotes.mayDenote {q : ℚ} (h : v.Denotes q) : v.MayDenote := by
  cases h with
  | int n => exact .int n
  | spelled hs hl _ => exact mayDenote_of_isSpelledBy hs hl

/-- The value is spelled as an integer of more digits than can be written out. -/
def ExceedsMemory (v : Value) : Prop :=
  v.spelling?.isSome = true ∧ ∃ n : Int, v.Denotes n ∧ 10 ^ Decimal.maxIntDigits ≤ |n|

/-- A value denotes one number at most. -/
theorem denotes_unique {p q : ℚ} (hp : v.Denotes p) (hq : v.Denotes q) : p = q := by
  cases hp with
  | int n =>
    cases hq with
    | int => rfl
    | spelled hs => cases hs
  | @spelled _ s l hs hl hrange =>
    cases hq with
    | int => cases hs
    | @spelled _ t k ht hk hkrange =>
      obtain rfl : s = t := Option.some.inj (hs.symm.trans ht)
      have hread := read?_eq_finite_iff.mpr ⟨l, hl, hrange, rfl⟩
      rw [read?_eq_finite_iff.mpr ⟨k, hk, hkrange, rfl⟩] at hread
      have hdecimals : k.decimal = l.decimal := Numeral.finite.inj (Option.some.inj hread)
      rw [← l.toRat_decimal, ← k.toRat_decimal, hdecimals]

end Value

namespace Status

variable {v : Value} {text : String} {d : Decimal} {n : Int} {q : ℚ} {kind : Kind}

/-- The numbers that a kind has a status for. -/
def codeTable : Kind → List (Int × Status)
  | .deposit => [(0, pending), (1, completed), (2, processing), (3, failed), (4, failed)]
  | .withdrawal => [(0, pending), (1, failed), (2, pending), (3, rejected), (4, processing),
      (5, failed), (6, completed)]
  | .payment => []

/-! ## Codes -/

theorem read?_eq_some_iff :
    Decimal.read? text = some d ↔ ∃ l : Literal, l.IsSpelledBy text ∧ l.InRange ∧ l.decimal = d := by
  rw [Decimal.read?, Option.bind_eq_some_iff]
  constructor
  · rintro ⟨numeral, hread, hfinite⟩
    cases numeral with
    | finite d' =>
      obtain rfl : d' = d := Option.some.inj hfinite
      exact read?_eq_finite_iff.mp hread
    | _ => cases hfinite
  · intro h
    exact ⟨.finite d, read?_eq_finite_iff.mpr h, rfl⟩

theorem read?_eq_none {c : Char} (hc : Literal.isOutside c = true) (hmem : c ∈ text.toList) :
    Decimal.read? text = none := by
  cases hread : Decimal.read? text with
  | none => rfl
  | some d =>
    obtain ⟨l, hl, -⟩ := read?_eq_some_iff.mp hread
    exact absurd hmem (hl.not_mem hc)

/-- A value whose text is read for its code. -/
inductive IsRead : Value → Prop
  | float (x : Binary64) : IsRead (.float x)
  | decimal (x : Numeral) : IsRead (.decimal x)
  | text (t : String) : IsRead (.text t)
  | moment (m : Moment) : IsRead (.moment m)
  | list (items : List Value) : IsRead (.list items)
  | object (fields : Fields) : IsRead (.object fields)

theorem IsRead.code?_of_none (h : IsRead v) (hread : Decimal.read? v.display = none) :
    code? v = .ok none := by
  cases h <;> simp only [code?, hread]

theorem IsRead.code?_of_some (h : IsRead v) (hread : Decimal.read? v.display = some d) :
    code? v = codeOf d := by
  cases h <;> simp only [code?, hread]

theorem isRead_of_spelling? (hs : v.spelling? = some text) : IsRead v ∧ v.display = text := by
  cases v with
  | float x =>
    obtain rfl : x.text = text := Option.some.inj hs
    exact ⟨.float x, by simp [Value.display, Value.quoted]⟩
  | decimal x => exact ⟨.decimal x, Option.some.inj hs⟩
  | text t => exact ⟨.text t, Option.some.inj hs⟩
  | _ => cases hs

/-- The texts of lists, of objects and of moments have characters that are outside literals. -/
theorem IsRead.spelling?_eq (h : IsRead v) (hread : Decimal.read? v.display = some d) :
    v.spelling? = some v.display := by
  cases h with
  | float x => simp [Value.spelling?, Value.display, Value.quoted]
  | decimal x => rfl
  | text t => rfl
  | moment m =>
    have hcolon : ':' ∈ (Value.moment m).display.toList := by
      simp [Value.display, Moment.isoTextWith, String.toList_append]
    cases (read?_eq_none (by decide) hcolon).symm.trans hread
  | list items =>
    have hbracket : '[' ∈ (Value.list items).display.toList := by
      simp [Value.display, Value.quoted, String.toList_append]
    cases (read?_eq_none (by decide) hbracket).symm.trans hread
  | object fields =>
    have hbrace : '\x7b' ∈ (Value.object fields).display.toList := by
      simp [Value.display, Value.quoted, String.toList_append]
    cases (read?_eq_none (by decide) hbrace).symm.trans hread

/-- The code is an integer, or comes from a spelling, or there is none and nothing is denoted. -/
theorem code?_cases (v : Value) :
    (∃ n, v = .int n ∧ code? v = .ok (some n)) ∨
      (∃ d : Decimal, v.spelling?.isSome = true ∧ v.Denotes d.toRat ∧ code? v = codeOf d) ∨
      ((∀ q, ¬ v.Denotes q) ∧ code? v = .ok none) := by
  have hread (h : IsRead v) :
      (∃ d : Decimal, v.spelling?.isSome = true ∧ v.Denotes d.toRat ∧ code? v = codeOf d) ∨
        ((∀ q, ¬ v.Denotes q) ∧ code? v = .ok none) := by
    cases hread : Decimal.read? v.display with
    | some d =>
      have hs := h.spelling?_eq hread
      obtain ⟨l, hl, hrange, rfl⟩ := read?_eq_some_iff.mp hread
      left
      exact ⟨l.decimal, by rw [hs]; rfl, l.toRat_decimal ▸ .spelled hs hl hrange,
        h.code?_of_some hread⟩
    | none =>
      right
      refine ⟨?_, h.code?_of_none hread⟩
      intro q hq
      cases hq with
      | int n => cases h
      | spelled hs hl hrange =>
        rw [(isRead_of_spelling? hs).2, read?_eq_some_iff.mpr ⟨_, hl, hrange, rfl⟩] at hread
        cases hread
  cases v with
  | null => exact .inr (.inr ⟨fun _ hq => (nomatch hq.mayDenote), rfl⟩)
  | bool b => exact .inr (.inr ⟨fun _ hq => (nomatch hq.mayDenote), rfl⟩)
  | int n => exact .inl ⟨n, rfl, rfl⟩
  | float x => exact .inr (hread (.float x))
  | decimal x => exact .inr (hread (.decimal x))
  | text t => exact .inr (hread (.text t))
  | moment m => exact .inr (hread (.moment m))
  | list items => exact .inr (hread (.list items))
  | object fields => exact .inr (hread (.object fields))

theorem codeOf_of_exceedsMemory (hn : d.toRat = (n : ℚ)) (h : 10 ^ Decimal.maxIntDigits ≤ |n|) :
    codeOf d = .error .outOfMemory := by
  have hsize : (10 : ℚ) ^ Decimal.maxIntDigits ≤ |d.toRat| := by
    rw [hn]
    exact_mod_cast h
  rw [codeOf, Decimal.isInteger_iff.mpr ⟨n, hn⟩, Decimal.exceedsMemory_iff.mpr hsize]
  rfl

theorem codeOf_of_not_exceedsMemory
    (h : ∀ n : Int, d.toRat = (n : ℚ) → ¬ 10 ^ Decimal.maxIntDigits ≤ |n|) : codeOf d = .ok d.toInt? := by
  rw [codeOf, if_neg]
  intro hboth
  obtain ⟨hinteger, hexceeds⟩ := Bool.and_eq_true_iff.mp hboth
  obtain ⟨n, hn⟩ := Decimal.isInteger_iff.mp hinteger
  have hsize := Decimal.exceedsMemory_iff.mp hexceeds
  rw [hn] at hsize
  exact h n hn (by exact_mod_cast hsize)

theorem code?_of_exceedsMemory (h : v.ExceedsMemory) : code? v = .error .outOfMemory := by
  obtain ⟨hs, n, hn, hsize⟩ := h
  rcases code?_cases v with ⟨m, rfl, -⟩ | ⟨d, -, hd, hcode⟩ | ⟨hnone, -⟩
  · cases hs
  · rw [hcode]
    exact codeOf_of_exceedsMemory (Value.denotes_unique hd hn) hsize
  · exact absurd hn (hnone n)

/-- A number that memory can hold is a code exactly if it is an integer. -/
theorem exists_code?_of_denotes (hq : v.Denotes q) (h : ¬ v.ExceedsMemory) :
    ∃ code, code? v = .ok code ∧ ∀ n : Int, code = some n ↔ q = n := by
  rcases code?_cases v with ⟨m, rfl, hcode⟩ | ⟨d, hs, hd, hcode⟩ | ⟨hnone, -⟩
  · refine ⟨some m, hcode, fun n => ?_⟩
    rw [Value.denotes_unique hq (.int m), Option.some.injEq]
    norm_cast
  · have hfits (n : Int) (hn : d.toRat = n) : ¬ 10 ^ Decimal.maxIntDigits ≤ |n| :=
      fun hsize => h ⟨hs, n, hn ▸ hd, hsize⟩
    refine ⟨d.toInt?, by rw [hcode, codeOf_of_not_exceedsMemory hfits], fun n => ?_⟩
    rw [Decimal.toInt?_eq_some_iff, Value.denotes_unique hq hd]
  · exact absurd hq (hnone q)

theorem code?_of_no_number (h : ∀ q, ¬ v.Denotes q) : code? v = .ok none := by
  rcases code?_cases v with ⟨n, rfl, -⟩ | ⟨d, -, hd, -⟩ | ⟨-, hcode⟩
  · exact absurd (.int n) (h n)
  · exact absurd hd (h _)
  · exact hcode

/-- Only a number that memory cannot hold keeps a value from being looked up. -/
theorem exists_code? (h : ¬ v.ExceedsMemory) : ∃ code, code? v = .ok code := by
  by_cases hnone : ∀ q, ¬ v.Denotes q
  · exact ⟨none, code?_of_no_number hnone⟩
  · obtain ⟨q, hq⟩ := not_forall_not.mp hnone
    obtain ⟨code, hcode, -⟩ := exists_code?_of_denotes hq h
    exact ⟨code, hcode⟩

/-! ## Statuses -/

theorem ofDepositCode_eq (n : Int) :
    ofDepositCode n = ((codeTable .deposit).lookup n).getD unknown := by
  unfold ofDepositCode
  split
  case h_6 h0 h1 h2 h3 h4 =>
    have hnone : (codeTable .deposit).lookup n = none := by
      simpa [codeTable, List.lookup_eq_none_iff] using And.intro h0 ⟨h1, h2, h3, h4⟩
    rw [hnone]
    rfl
  all_goals rfl

theorem ofWithdrawalCode_eq (n : Int) :
    ofWithdrawalCode n = ((codeTable .withdrawal).lookup n).getD unknown := by
  unfold ofWithdrawalCode
  split
  case h_8 h0 h1 h2 h3 h4 h5 h6 =>
    have hnone : (codeTable .withdrawal).lookup n = none := by
      simpa [codeTable, List.lookup_eq_none_iff] using And.intro h0 ⟨h1, h2, h3, h4, h5, h6⟩
    rw [hnone]
    rfl
  all_goals rfl

theorem ofRaw_eq (hkind : kind ≠ .payment) (v : Value) : ofRaw kind v =
    (code? v).map fun code => (code.bind fun n => (codeTable kind).lookup n).getD unknown := by
  cases kind with
  | deposit =>
    refine congrArg (fun f => (code? v).map f) (funext fun code => ?_)
    cases code with
    | none => rfl
    | some n => exact ofDepositCode_eq n
  | withdrawal =>
    refine congrArg (fun f => (code? v).map f) (funext fun code => ?_)
    cases code with
    | none => rfl
    | some n => exact ofWithdrawalCode_eq n
  | payment => exact absurd rfl hkind

/-- A raw status has no status exactly if it is a number that its kind looks up and memory cannot
hold. -/
theorem ofRaw_cases (kind : Kind) (v : Value) :
    (kind ≠ .payment ∧ v.ExceedsMemory ∧ ofRaw kind v = .error .outOfMemory) ∨
      ((kind ≠ .payment → ¬ v.ExceedsMemory) ∧ ∃ s, ofRaw kind v = .ok s) := by
  by_cases hkind : kind = .payment
  · subst hkind
    right
    refine ⟨fun h => absurd rfl h, ?_⟩
    cases v <;> exact ⟨_, rfl⟩
  · by_cases h : v.ExceedsMemory
    · left
      refine ⟨hkind, h, ?_⟩
      rw [ofRaw_eq hkind, code?_of_exceedsMemory h]
      rfl
    · right
      obtain ⟨code, hcode⟩ := exists_code? h
      refine ⟨fun _ => h, ?_⟩
      rw [ofRaw_eq hkind, hcode]
      exact ⟨_, rfl⟩

end Status

end GatewayLedger
