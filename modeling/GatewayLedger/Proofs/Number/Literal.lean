import GatewayLedger.Number.Decimal.Reader
import GatewayLedger.Proofs.Number.Value
import GatewayLedger.Proofs.Text.Blank
import GatewayLedger.Proofs.Text.Digit

/-!
# Literals

A literal is a sign, digits with at most one point among them, and an exponent; each of the three may
be left out, but not all of the digits. `Numeral.read?_eq_finite_iff` says that reading finds exactly
the texts of literals whose digits are in range, and what decimal it makes of them. Each part of a
literal has a lemma for its reader.
-/

namespace GatewayLedger

/-- The exponents of the first and of the last digit are not too large and not too small. -/
def Decimal.InRange (d : Decimal) : Prop :=
  d.adjusted ≤ Numeral.maxAdjusted ∧ Numeral.minExponent ≤ d.exponent

instance (d : Decimal) : Decidable d.InRange := inferInstanceAs (Decidable (_ ∧ _))

namespace Numeral

open Text

/-- A sign, if one is written. -/
inductive Sign
  | none
  | plus
  | minus

namespace Sign

def chars : Sign → List Char
  | none => []
  | plus => ['+']
  | minus => ['-']

def isMinus : Sign → Bool
  | minus => true
  | _ => false

/-- A minus, or nothing. -/
def ofNegative (negative : Bool) : Sign := if negative then minus else none

theorem isMinus_ofNegative (negative : Bool) : (ofNegative negative).isMinus = negative := by
  cases negative <;> rfl

end Sign

structure Exponent where
  letter : Char
  sign : Sign
  digits : List Char
  isLetter : letter = 'e' ∨ letter = 'E'
  digits_ne : digits ≠ []
  isDigit : ∀ c ∈ digits, c.isDigit = true

namespace Exponent

def chars (x : Exponent) : List Char := x.letter :: (x.sign.chars ++ x.digits)

def value (x : Exponent) : Int :=
  if x.sign.isMinus then -(Nat.ofDigitChars 10 x.digits 0 : Int) else Nat.ofDigitChars 10 x.digits 0

end Exponent

structure Literal where
  sign : Sign
  whole : List Char
  /-- The digits behind the point, if there is a point. -/
  fraction : Option (List Char)
  exponent : Option Exponent
  digits_ne : whole ++ fraction.getD [] ≠ []
  isDigit : ∀ c ∈ whole ++ fraction.getD [], c.isDigit = true

def fractionChars : Option (List Char) → List Char
  | none => []
  | some ds => '.' :: ds

/-- A point only if digits follow it. -/
def fractionOf (ds : List Char) : Option (List Char) := if ds = [] then none else some ds

theorem getD_fractionOf (ds : List Char) : (fractionOf ds).getD [] = ds := by
  cases ds <;> rfl

theorem fractionChars_fractionOf (ds : List Char) :
    fractionChars (fractionOf ds) = if ds = [] then [] else '.' :: ds := by
  cases ds <;> rfl

def exponentChars : Option Exponent → List Char
  | none => []
  | some x => x.chars

def exponentValue : Option Exponent → Int
  | none => 0
  | some x => x.value

namespace Literal

def unsignedChars (l : Literal) : List Char :=
  l.whole ++ (fractionChars l.fraction ++ exponentChars l.exponent)

def chars (l : Literal) : List Char := l.sign.chars ++ l.unsignedChars

/-- All the digits as one number. -/
def units (l : Literal) : Nat := Nat.ofDigitChars 10 (l.whole ++ l.fraction.getD []) 0

/-- The digits behind the point. -/
def places (l : Literal) : Nat := (l.fraction.getD []).length

def value (l : Literal) : ℚ :=
  (if l.sign.isMinus then -1 else 1) * (l.units / 10 ^ l.places) * 10 ^ exponentValue l.exponent

/-- The decimal with the digits as they are written. -/
def decimal (l : Literal) : Decimal :=
  ⟨l.sign.isMinus, l.units, exponentValue l.exponent - l.places⟩

def InRange (l : Literal) : Prop := l.decimal.InRange

instance (l : Literal) : Decidable l.InRange := inferInstanceAs (Decidable l.decimal.InRange)

/-- A text is a spelling of a literal if it is that literal with blanks around it, underscores in it
and digits of any script. -/
def IsSpelledBy (l : Literal) (text : String) : Prop :=
  ((trim text.toList).filter (· != '_')).mapM plainChar? = some l.chars

instance (l : Literal) (text : String) : Decidable (l.IsSpelledBy text) :=
  inferInstanceAs (Decidable (_ = _))

theorem toRat_decimal (l : Literal) : l.decimal.toRat = l.value := by
  have hpower : (10 : ℚ) ^ (exponentValue l.exponent - l.places) =
      10 ^ exponentValue l.exponent / 10 ^ l.places := by
    rw [zpow_sub₀ (by norm_num), zpow_natCast]
  rw [Decimal.toRat_eq, decimal, Decimal.signed, value]
  dsimp only
  rw [hpower]
  split
  · push_cast
    ring
  · push_cast
    ring

end Literal

/-! ## Signs -/

variable {cs : List Char} {c : Char} {negative : Bool} {d : Decimal} {e : Int}

theorem readSign_append (s : Sign) (h : ∀ c, cs.head? = some c → c ≠ '+' ∧ c ≠ '-') :
    readSign (s.chars ++ cs) = (s.isMinus, cs) := by
  cases s with
  | none =>
    change readSign cs = (false, cs)
    unfold readSign
    split
    · exact absurd rfl (h _ rfl).2
    · exact absurd rfl (h _ rfl).1
    · rfl
  | plus => rfl
  | minus => rfl

theorem exists_sign (cs : List Char) :
    ∃ s : Sign, s.isMinus = (readSign cs).1 ∧ s.chars ++ (readSign cs).2 = cs := by
  unfold readSign
  split
  · exact ⟨.minus, rfl, rfl⟩
  · exact ⟨.plus, rfl, rfl⟩
  · exact ⟨.none, rfl, rfl⟩

/-! ## Exponents -/

theorem head?_ne_sign (h : ∀ c ∈ cs, c.isDigit = true) (c : Char) (hc : cs.head? = some c) :
    c ≠ '+' ∧ c ≠ '-' := by
  have hdigit := h c (List.mem_of_mem_head? hc)
  exact ⟨ne_of_isDigit hdigit (by decide), ne_of_isDigit hdigit (by decide)⟩

theorem readExponent?_eq_some_iff :
    readExponent? cs = some e ↔ ∃ x, exponentChars x = cs ∧ exponentValue x = e := by
  constructor
  · intro h
    unfold readExponent? at h
    split at h
    · exact ⟨none, rfl, Option.some.inj h⟩
    · next c r =>
      split at h
      · next hletter =>
        obtain ⟨s, hminus, hchars⟩ := exists_sign r
        dsimp only at h
        split at h
        · cases h
        · next hdigits =>
          simp only [Bool.or_eq_true, Bool.not_eq_true', not_or, Bool.not_eq_true,
            Bool.not_eq_false] at hdigits
          refine ⟨some ⟨c, s, (readSign r).2, by simpa using hletter,
            List.isEmpty_eq_false_iff.mp hdigits.1, all_isAsciiDigit_iff.mp hdigits.2⟩, ?_, ?_⟩
          · exact congrArg (c :: ·) hchars
          · rw [exponentValue, Exponent.value, hminus]
            exact Option.some.inj h
      · cases h
  · rintro ⟨x, rfl, rfl⟩
    cases x with
    | none => rfl
    | some x =>
      have hletter : (x.letter == 'e' || x.letter == 'E') = true := by simpa using x.isLetter
      have hdigits : (x.digits.isEmpty || !x.digits.all isAsciiDigit) = false := by
        rw [List.isEmpty_eq_false_iff.mpr x.digits_ne, all_isAsciiDigit_iff.mpr x.isDigit]
        rfl
      rw [exponentChars, Exponent.chars, readExponent?, if_pos hletter,
        readSign_append _ (head?_ne_sign x.isDigit)]
      dsimp only
      rw [if_neg (by rw [hdigits]; exact Bool.false_ne_true)]
      rfl

/-- No digit and no point. -/
def NoDigitHead (cs : List Char) : Prop := ∀ c, cs.head? = some c → c.isDigit = false ∧ c ≠ '.'

theorem noDigitHead_exponentChars (x : Option Exponent) : NoDigitHead (exponentChars x) := by
  cases x with
  | none => exact fun c hc => by cases hc
  | some x =>
    intro c hc
    obtain rfl : x.letter = c := Option.some.inj hc
    rcases x.isLetter with h | h
    · rw [h]
      decide
    · rw [h]
      decide

/-! ## Fractions -/

theorem readFraction_append {f : Option (List Char)} (hf : ∀ c ∈ f.getD [], c.isDigit = true)
    (hcs : NoDigitHead cs) : readFraction (fractionChars f ++ cs) = (f.getD [], cs) := by
  cases f with
  | none =>
    change readFraction cs = ([], cs)
    unfold readFraction
    split
    · exact absurd rfl (hcs _ rfl).2
    · rfl
  | some ds =>
    rw [Option.getD_some] at hf ⊢
    obtain ⟨htake, hdrop⟩ := takeWhile_digits_append hf fun c hc => (hcs c hc).1
    change ((ds ++ cs).takeWhile isAsciiDigit, (ds ++ cs).dropWhile isAsciiDigit) = _
    rw [htake, hdrop]

theorem exists_fraction (cs : List Char) :
    ∃ f : Option (List Char), f.getD [] = (readFraction cs).1 ∧
      (∀ c ∈ f.getD [], c.isDigit = true) ∧ fractionChars f ++ (readFraction cs).2 = cs := by
  unfold readFraction
  split
  · next r =>
    refine ⟨some (r.takeWhile isAsciiDigit), rfl, fun c hc => isDigit_of_mem_takeWhile hc, ?_⟩
    exact congrArg ('.' :: ·) (List.takeWhile_append_dropWhile ..)
  · exact ⟨none, rfl, fun c hc => absurd hc List.not_mem_nil, rfl⟩

theorem isEmpty_and_isEmpty_iff (as bs : List Char) :
    (as.isEmpty && bs.isEmpty) = true ↔ as ++ bs = [] := by
  simp [List.isEmpty_iff]

/-! ## Literals -/

namespace Literal

variable (l : Literal)

theorem noDigitHead_fraction_exponent :
    ∀ c, (fractionChars l.fraction ++ exponentChars l.exponent).head? = some c →
      c.isDigit = false := by
  cases l.fraction with
  | none => exact fun c hc => (noDigitHead_exponentChars l.exponent c hc).1
  | some ds =>
    intro c hc
    obtain rfl : '.' = c := Option.some.inj hc
    decide

theorem exists_unsignedChars_eq :
    ∃ c cs, (c.isDigit = true ∨ c = '.') ∧ l.unsignedChars = c :: cs := by
  unfold unsignedChars
  cases hwhole : l.whole with
  | cons c cs => exact ⟨c, _, .inl (l.isDigit c (by simp [hwhole])), rfl⟩
  | nil =>
    cases hfraction : l.fraction with
    | some ds => exact ⟨'.', _, .inr rfl, rfl⟩
    | none => exact absurd (by rw [hwhole, hfraction]; rfl) l.digits_ne

theorem readFinite?_unsignedChars (h : l.InRange) :
    readFinite? l.sign.isMinus l.unsignedChars = some l.decimal := by
  have hwhole : ∀ c ∈ l.whole, c.isDigit = true :=
    fun c hc => l.isDigit c (List.mem_append_left _ hc)
  have hfraction : ∀ c ∈ l.fraction.getD [], c.isDigit = true :=
    fun c hc => l.isDigit c (List.mem_append_right _ hc)
  obtain ⟨htake, hdrop⟩ := takeWhile_digits_append hwhole l.noDigitHead_fraction_exponent
  have hexponent : readExponent? (exponentChars l.exponent) = some (exponentValue l.exponent) :=
    readExponent?_eq_some_iff.mpr ⟨_, rfl, rfl⟩
  have hdigits : ¬ ((l.whole.isEmpty && (l.fraction.getD []).isEmpty) = true) := by
    rw [isEmpty_and_isEmpty_iff]
    exact l.digits_ne
  have hrange : (decide (l.decimal.adjusted ≤ maxAdjusted) &&
      decide (minExponent ≤ l.decimal.exponent)) = true := by
    rw [decide_eq_true h.1, decide_eq_true h.2]
    rfl
  rw [readFinite?, unsignedChars]
  dsimp only
  rw [htake, hdrop, readFraction_append hfraction (noDigitHead_exponentChars l.exponent)]
  dsimp only
  rw [if_neg hdigits, hexponent]
  exact if_pos hrange

end Literal

theorem readFinite?_eq_some_iff {s : Sign} : readFinite? s.isMinus cs = some d ↔
    ∃ l : Literal, l.sign = s ∧ l.unsignedChars = cs ∧ l.InRange ∧ l.decimal = d := by
  constructor
  · intro h
    obtain ⟨f, hf, hdigits, hchars⟩ := exists_fraction (cs.dropWhile isAsciiDigit)
    rw [readFinite?] at h
    dsimp only at h
    rw [← hf] at h
    split at h
    · cases h
    next hempty =>
    split at h
    · cases h
    next e hexponent =>
    obtain ⟨x, hx, rfl⟩ := readExponent?_eq_some_iff.mp hexponent
    have hdigit : ∀ c ∈ cs.takeWhile isAsciiDigit ++ f.getD [], c.isDigit = true := by
      intro c hc
      rcases List.mem_append.mp hc with hc | hc
      · exact isDigit_of_mem_takeWhile hc
      · exact hdigits c hc
    split at h
    · next hrange =>
      rw [Bool.and_eq_true, decide_eq_true_eq, decide_eq_true_eq] at hrange
      refine ⟨⟨s, cs.takeWhile isAsciiDigit, f, x, mt (isEmpty_and_isEmpty_iff _ _).mpr hempty,
        hdigit⟩, rfl, ?_, hrange, Option.some.inj h⟩
      rw [Literal.unsignedChars, hx, hchars, List.takeWhile_append_dropWhile]
    · cases h
  · rintro ⟨l, rfl, rfl, hrange, rfl⟩
    exact l.readFinite?_unsignedChars hrange

theorem readPayload?_ne_finite {signaling : Bool} :
    readPayload? negative signaling cs ≠ some (.finite d) := by
  intro h
  unfold readPayload? at h
  split at h <;> cases h

/-- No word begins with a digit or a point. -/
theorem Literal.map_toLower_ne (l : Literal) {letter : Char} {rest : List Char}
    (hdigit : letter.isDigit = false) (hpoint : letter ≠ '.') :
    l.unsignedChars.map Char.toLower ≠ letter :: rest := by
  obtain ⟨c, cs, hc, hchars⟩ := l.exists_unsignedChars_eq
  intro hword
  rw [hchars, List.map_cons] at hword
  obtain rfl : c.toLower = letter := (List.cons.inj hword).1
  rcases hc with hc | rfl
  · rw [toLower_of_isDigit hc, hc] at hdigit
    cases hdigit
  · exact hpoint (by decide)

theorem readUnsigned?_eq_finite_iff {s : Sign} :
    readUnsigned? s.isMinus cs = some (.finite d) ↔ readFinite? s.isMinus cs = some d := by
  constructor
  · intro h
    unfold readUnsigned? at h
    split at h
    · cases h
    · cases h
    · exact absurd h readPayload?_ne_finite
    · exact absurd h readPayload?_ne_finite
    · obtain ⟨d', hd', hfinite⟩ := Option.map_eq_some_iff.mp h
      cases hfinite
      exact hd'
  · intro h
    obtain ⟨l, hsign, rfl, -, -⟩ := readFinite?_eq_some_iff.mp h
    unfold readUnsigned?
    split
    · next hword => exact absurd hword (l.map_toLower_ne (by decide) (by decide))
    · next hword => exact absurd hword (l.map_toLower_ne (by decide) (by decide))
    · next hword => exact absurd hword (l.map_toLower_ne (by decide) (by decide))
    · next hword => exact absurd hword (l.map_toLower_ne (by decide) (by decide))
    · rw [h]
      rfl

theorem Literal.readSign_chars (l : Literal) :
    readSign l.chars = (l.sign.isMinus, l.unsignedChars) := by
  obtain ⟨c, cs, hc, hchars⟩ := l.exists_unsignedChars_eq
  refine readSign_append l.sign fun d hd => ?_
  rw [hchars] at hd
  obtain rfl : c = d := Option.some.inj hd
  rcases hc with hc | rfl
  · exact ⟨ne_of_isDigit hc (by decide), ne_of_isDigit hc (by decide)⟩
  · decide

/-- Exactly the spellings of literals in range are read as decimals. -/
theorem read?_eq_finite_iff {text : String} : read? text = some (.finite d) ↔
    ∃ l : Literal, l.IsSpelledBy text ∧ l.InRange ∧ l.decimal = d := by
  unfold read? readChars? Literal.IsSpelledBy
  cases ((trim text.toList).filter (· != '_')).mapM plainChar? with
  | none => simp
  | some plain =>
    dsimp only
    constructor
    · intro h
      obtain ⟨s, hminus, hchars⟩ := exists_sign plain
      rw [← hminus, readUnsigned?_eq_finite_iff, readFinite?_eq_some_iff] at h
      obtain ⟨l, rfl, hrest, hrange, hd⟩ := h
      refine ⟨l, ?_, hrange, hd⟩
      rw [Literal.chars, hrest, hchars]
    · rintro ⟨l, hspelled, hrange, rfl⟩
      rw [Option.some.inj hspelled, l.readSign_chars]
      exact readUnsigned?_eq_finite_iff.mpr (l.readFinite?_unsignedChars hrange)

/-! ## Characters of a literal -/

namespace Literal

variable {l : Literal}

/-- The characters of literals besides digits. -/
def marks : List Char := ['+', '-', '.', 'e', 'E']

theorem mem_signChars {s : Sign} (h : c ∈ s.chars) : c = '+' ∨ c = '-' := by
  cases s with
  | none => exact absurd h List.not_mem_nil
  | plus => exact .inl (List.mem_singleton.mp h)
  | minus => exact .inr (List.mem_singleton.mp h)

theorem mem_chars (h : c ∈ l.chars) : c.isDigit = true ∨ c ∈ marks := by
  have hsign : ∀ {s : Sign}, c ∈ s.chars → c.isDigit = true ∨ c ∈ marks := by
    intro s hs
    rcases mem_signChars hs with rfl | rfl <;> exact .inr (by decide)
  rw [chars, unsignedChars, List.mem_append, List.mem_append, List.mem_append] at h
  rcases h with h | h | h | h
  · exact hsign h
  · exact .inl (l.isDigit c (List.mem_append_left _ h))
  · cases hfraction : l.fraction with
    | none =>
      rw [hfraction] at h
      exact absurd h List.not_mem_nil
    | some ds =>
      rw [hfraction] at h
      rcases List.mem_cons.mp h with rfl | h
      · exact .inr (by decide)
      · exact .inl (l.isDigit c (List.mem_append_right _ (by rw [hfraction]; exact h)))
  · cases hexponent : l.exponent with
    | none =>
      rw [hexponent] at h
      exact absurd h List.not_mem_nil
    | some x =>
      rw [hexponent] at h
      rcases List.mem_cons.mp h with rfl | h
      · rcases x.isLetter with hx | hx <;> exact .inr (by rw [hx]; decide)
      rcases List.mem_append.mp h with h | h
      · exact hsign h
      · exact .inl (x.isDigit c h)

theorem not_blank_of_mem_chars (h : c ∈ l.chars) : isBlank c = false := by
  rcases mem_chars h with h | h
  · exact isBlank_of_isDigit h
  · have hmarks : marks.all (fun d => !isBlank d) = true := by decide
    exact (Bool.not_eq_true' _).mp (List.all_eq_true.mp hmarks c h)

theorem plainChar?_of_mem_chars (h : c ∈ l.chars) : plainChar? c = some c := by
  have hascii : 0 < c.toNat ∧ c.toNat < 128 := by
    rcases mem_chars h with h | h
    · obtain ⟨hlow, hhigh⟩ := toNat_of_isDigit h
      omega
    · have hmarks : marks.all (fun d => 0 < d.toNat ∧ d.toNat < 128) = true := by decide
      exact of_decide_eq_true (List.all_eq_true.mp hmarks c h)
  simp [plainChar?, hascii]

theorem ne_underscore_of_mem_chars (h : c ∈ l.chars) : (c != '_') = true := by
  rw [bne_iff_ne]
  rintro rfl
  rcases mem_chars h with h | h <;> exact absurd h (by decide)

theorem mapM_plainChar? (h : ∀ c ∈ cs, plainChar? c = some c) : cs.mapM plainChar? = some cs := by
  induction cs with
  | nil => rfl
  | cons c cs ih =>
    rw [List.mapM_cons, h c List.mem_cons_self, ih fun d hd => h d (List.mem_cons_of_mem c hd)]
    rfl

/-- An ASCII character that no literal has and that is not passed over in reading. -/
def isOutside (c : Char) : Bool :=
  plainChar? c == some c && !isBlank c && c != '_' && !c.isDigit && !(marks.contains c)

theorem mem_of_mapM_plainChar? {plain : List Char} (hc : plainChar? c = some c) (h : c ∈ cs)
    (hplain : cs.mapM plainChar? = some plain) : c ∈ plain := by
  induction cs generalizing plain with
  | nil => exact absurd h List.not_mem_nil
  | cons d cs ih =>
    rw [List.mapM_cons] at hplain
    obtain ⟨e, hread, hplain⟩ := Option.bind_eq_some_iff.mp hplain
    obtain ⟨rest, hrest, hplain⟩ := Option.bind_eq_some_iff.mp hplain
    obtain rfl : e :: rest = plain := Option.some.inj hplain
    rcases List.mem_cons.mp h with rfl | h
    · obtain rfl : c = e := Option.some.inj (hc.symm.trans hread)
      exact List.mem_cons_self
    · exact List.mem_cons_of_mem e (ih h hrest)

theorem IsSpelledBy.not_mem {text : String} (h : l.IsSpelledBy text) (hc : isOutside c = true) :
    c ∉ text.toList := by
  intro hmem
  simp only [isOutside, Bool.and_eq_true, beq_iff_eq, Bool.not_eq_true', bne_iff_ne,
    List.contains_eq_mem, decide_eq_false_iff_not] at hc
  obtain ⟨⟨⟨⟨hplain, hblank⟩, hunderscore⟩, hdigit⟩, hmark⟩ := hc
  have hkept : c ∈ (trim text.toList).filter (· != '_') :=
    List.mem_filter.mpr ⟨mem_trim hmem hblank, bne_iff_ne.mpr hunderscore⟩
  rcases mem_chars (mem_of_mapM_plainChar? hplain hkept h) with hchar | hchar
  · exact ne_of_isDigit hchar hdigit rfl
  · exact hmark hchar

theorem trim_chars (l : Literal) : trim l.chars = l.chars := by
  apply trim_of_not_blank
  rw [List.any_eq_false]
  intro c hc
  rw [not_blank_of_mem_chars hc]
  exact Bool.false_ne_true

/-- A literal is spelled by its own characters with any blanks around them. -/
theorem isSpelledBy_surrounded (l : Literal) {before after : List Char}
    (hbefore : ∀ c ∈ before, isBlank c = true) (hafter : ∀ c ∈ after, isBlank c = true) :
    l.IsSpelledBy (String.ofList (before ++ l.chars ++ after)) := by
  have hkept : l.chars.filter (· != '_') = l.chars :=
    List.filter_eq_self.mpr fun c hc => ne_underscore_of_mem_chars hc
  rw [IsSpelledBy, String.toList_ofList, trim_surrounded hbefore hafter, l.trim_chars, hkept]
  exact mapM_plainChar? fun c hc => plainChar?_of_mem_chars hc

theorem isSpelledBy_chars (l : Literal) : l.IsSpelledBy (String.ofList l.chars) := by
  have h := l.isSpelledBy_surrounded (List.forall_mem_nil _) (List.forall_mem_nil _)
  rwa [List.nil_append, List.append_nil] at h

end Literal

end Numeral

end GatewayLedger
