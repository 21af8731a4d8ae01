import GatewayLedger.Proofs.Exchange.Check
import GatewayLedger.Proofs.Number.Value

/-!
# Withdrawals that pass their check

A withdrawal is checked by five rules, one after the other, and the first rule that it breaks names
the failure. The last rule is about the form of an address, which depends on the network. Where that
form is known, one line break behind the address is passed over.
-/

namespace GatewayLedger

/-! ## Forms of addresses -/

/-- The networks whose addresses have a known form. -/
def knownNetworks : List String := ["ETH", "BSC", "BTC", "TRX"]

def hexDigits : List Char := "0123456789abcdefABCDEF".toList

/-- The addresses of a network, by its name in upper case. -/
inductive IsAddressOf (network : String) : List Char → Prop
  | hexadecimal {digits : List Char} (hnetwork : network = "ETH" ∨ network = "BSC")
      (hdigits : ∀ c ∈ digits, c ∈ hexDigits) (hlength : digits.length = 40) :
      IsAddressOf network ("0x".toList ++ digits)
  | bitcoin {mark : String} {tail : List Char} (hnetwork : network = "BTC")
      (hmark : mark ∈ ["1", "3", "bc1"]) (htail : ∀ c ∈ tail, c.isAlphanum = true)
      (hleast : 25 ≤ tail.length) (hmost : tail.length ≤ 42) :
      IsAddressOf network (mark.toList ++ tail)
  | tron {tail : List Char} (hnetwork : network = "TRX")
      (htail : ∀ c ∈ tail, c.isAlphanum = true) (hlength : tail.length = 33) :
      IsAddressOf network ("T".toList ++ tail)
  | other {address : List Char} (hnetwork : network ∉ knownNetworks)
      (hlength : 11 ≤ address.length) : IsAddressOf network address

/-- What passes for an address: an address, or one with a line break behind it if its form is
known. -/
def PassesForAddress (network : String) (address : List Char) : Prop :=
  IsAddressOf network address ∨
    network ∈ knownNetworks ∧ ∃ bare, address = bare ++ ['\n'] ∧ IsAddressOf network bare

namespace AddressForm

variable {cs bare : List Char} {network : String}

theorem isHexDigit_iff {c : Char} : isHexDigit c = true ↔ c ∈ hexDigits := by
  constructor
  · intro h
    have hascii : ∀ n < 128, isHexDigit (Char.ofNat n) = true → Char.ofNat n ∈ hexDigits := by
      decide
    have hsmall : c.toNat < 128 := by
      simp only [isHexDigit, Bool.or_eq_true, Bool.and_eq_true, decide_eq_true_eq,
        Char.le_def, UInt32.le_iff_toNat_le] at h
      change c.val.toNat < 128
      rcases h with (⟨_, h⟩ | ⟨_, h⟩) | ⟨_, h⟩
      · exact h.trans_lt (by decide)
      · exact h.trans_lt (by decide)
      · exact h.trans_lt (by decide)
    have hc := hascii c.toNat hsmall
    rw [Char.ofNat_toNat] at hc
    exact hc h
  · intro h
    have hall : hexDigits.all isHexDigit = true := by decide
    exact List.all_eq_true.mp hall c h

theorem isHexadecimal_iff : isHexadecimal cs = true ↔
    ∃ digits, cs = "0x".toList ++ digits ∧ (∀ c ∈ digits, c ∈ hexDigits) ∧ digits.length = 40 := by
  constructor
  · intro h
    unfold isHexadecimal at h
    split at h
    · next digits =>
      simp only [Bool.and_eq_true, List.all_eq_true, isHexDigit_iff, beq_iff_eq] at h
      exact ⟨digits, rfl, h⟩
    · cases h
  · rintro ⟨digits, rfl, h⟩
    simpa [isHexadecimal, isHexDigit_iff] using h

theorem isBitcoinTail_iff : isBitcoinTail cs = true ↔
    (∀ c ∈ cs, c.isAlphanum = true) ∧ 25 ≤ cs.length ∧ cs.length ≤ 42 := by
  simp [isBitcoinTail, and_assoc]

theorem isBitcoin_iff : isBitcoin cs = true ↔
    ∃ mark ∈ ["1", "3", "bc1"], ∃ tail, cs = mark.toList ++ tail ∧
      (∀ c ∈ tail, c.isAlphanum = true) ∧ 25 ≤ tail.length ∧ tail.length ≤ 42 := by
  constructor
  · intro h
    unfold isBitcoin at h
    split at h
    · next tail => exact ⟨"1", by simp, tail, rfl, isBitcoinTail_iff.mp h⟩
    · next tail => exact ⟨"3", by simp, tail, rfl, isBitcoinTail_iff.mp h⟩
    · next tail => exact ⟨"bc1", by simp, tail, rfl, isBitcoinTail_iff.mp h⟩
    · cases h
  · rintro ⟨mark, hmark, tail, rfl, h⟩
    simp only [List.mem_cons, List.not_mem_nil, or_false] at hmark
    rcases hmark with rfl | rfl | rfl
    · exact isBitcoinTail_iff.mpr h
    · exact isBitcoinTail_iff.mpr h
    · exact isBitcoinTail_iff.mpr h

theorem isTron_iff : isTron cs = true ↔
    ∃ tail, cs = "T".toList ++ tail ∧ (∀ c ∈ tail, c.isAlphanum = true) ∧ tail.length = 33 := by
  constructor
  · intro h
    unfold isTron at h
    split at h
    · next tail =>
      simp only [Bool.and_eq_true, List.all_eq_true, beq_iff_eq] at h
      exact ⟨tail, rfl, h⟩
    · cases h
  · rintro ⟨tail, rfl, h⟩
    simpa [isTron] using h

/-! ## The line break behind an address -/

theorem withoutLineBreak_append (bare : List Char) : withoutLineBreak (bare ++ ['\n']) = bare := by
  simp [withoutLineBreak]

theorem withoutLineBreak_of_not_mem (h : '\n' ∉ cs) : withoutLineBreak cs = cs := by
  unfold withoutLineBreak
  split
  · next rest hrest =>
    have hmem : '\n' ∈ cs.reverse := hrest ▸ List.mem_cons_self
    exact absurd (List.mem_reverse.mp hmem) h
  · rfl

theorem withoutLineBreak_cases (cs : List Char) :
    withoutLineBreak cs = cs ∨ cs = withoutLineBreak cs ++ ['\n'] := by
  unfold withoutLineBreak
  split
  · next rest hrest =>
    right
    rw [← List.reverse_reverse cs, hrest, List.reverse_cons]
  · exact .inl rfl

theorem not_mem_of_isAddressOf (hnetwork : network ∈ knownNetworks) (h : IsAddressOf network cs) :
    '\n' ∉ cs := by
  have halphanum : ∀ tail : List Char, (∀ c ∈ tail, c.isAlphanum = true) → '\n' ∉ tail :=
    fun tail htail hmem => absurd (htail _ hmem) (by decide)
  cases h with
  | @hexadecimal digits _ hdigits _ =>
    have hnot : '\n' ∉ digits := fun hmem => absurd (hdigits _ hmem) (by decide)
    simpa using hnot
  | @bitcoin mark tail _ hmark htail _ _ =>
    have hmarks : ∀ mark ∈ ["1", "3", "bc1"], '\n' ∉ mark.toList := by decide
    rw [List.mem_append, not_or]
    exact ⟨hmarks mark hmark, halphanum tail htail⟩
  | @tron tail _ htail _ => simpa using halphanum tail htail
  | other hother _ => exact absurd hnetwork hother

/-- Passing over one line break accepts the addresses of a known form, and those with a line break
behind them. -/
theorem isAddressOf_withoutLineBreak_iff (hnetwork : network ∈ knownNetworks) :
    IsAddressOf network (withoutLineBreak cs) ↔ PassesForAddress network cs := by
  constructor
  · intro h
    rcases withoutLineBreak_cases cs with hsame | hbreak
    · exact .inl (hsame ▸ h)
    · exact .inr ⟨hnetwork, _, hbreak, h⟩
  · rintro (h | ⟨_, bare, rfl, h⟩)
    · rwa [withoutLineBreak_of_not_mem (not_mem_of_isAddressOf hnetwork h)]
    · rwa [withoutLineBreak_append]

/-! ## The form that a network asks for -/

theorem isAddressOf_eth_iff (h : network = "ETH" ∨ network = "BSC") :
    IsAddressOf network cs ↔ isHexadecimal cs = true := by
  rw [isHexadecimal_iff]
  constructor
  · rintro (⟨_, hdigits, hlength⟩ | ⟨hbitcoin, _⟩ | ⟨htron, _⟩ | ⟨hother, _⟩)
    · exact ⟨_, rfl, hdigits, hlength⟩
    · subst hbitcoin
      simp at h
    · subst htron
      simp at h
    · rcases h with rfl | rfl <;> simp [knownNetworks] at hother
  · rintro ⟨digits, rfl, hdigits, hlength⟩
    exact .hexadecimal h hdigits hlength

theorem isAddressOf_btc_iff : IsAddressOf "BTC" cs ↔ isBitcoin cs = true := by
  rw [isBitcoin_iff]
  constructor
  · rintro (⟨hhexadecimal, _⟩ | ⟨_, hmark, htail, hleast, hmost⟩ | ⟨htron, _⟩ | ⟨hother, _⟩)
    · simp at hhexadecimal
    · exact ⟨_, hmark, _, rfl, htail, hleast, hmost⟩
    · simp at htron
    · simp [knownNetworks] at hother
  · rintro ⟨mark, hmark, tail, rfl, htail, hleast, hmost⟩
    exact .bitcoin rfl hmark htail hleast hmost

theorem isAddressOf_trx_iff : IsAddressOf "TRX" cs ↔ isTron cs = true := by
  rw [isTron_iff]
  constructor
  · rintro (⟨hhexadecimal, _⟩ | ⟨hbitcoin, _⟩ | ⟨_, htail, hlength⟩ | ⟨hother, _⟩)
    · simp at hhexadecimal
    · simp at hbitcoin
    · exact ⟨_, rfl, htail, hlength⟩
    · simp [knownNetworks] at hother
  · rintro ⟨tail, rfl, htail, hlength⟩
    exact .tron rfl htail hlength

theorem isAddressOf_other_iff (h : network ∉ knownNetworks) :
    IsAddressOf network cs ↔ 11 ≤ cs.length := by
  constructor
  · rintro (⟨hhexadecimal, _⟩ | ⟨hbitcoin, _⟩ | ⟨htron, _⟩ | ⟨_, hlength⟩)
    · rcases hhexadecimal with rfl | rfl <;> simp [knownNetworks] at h
    · simp [hbitcoin, knownNetworks] at h
    · simp [htron, knownNetworks] at h
    · exact hlength
  · exact .other h

theorem passesForAddress_other_iff (h : network ∉ knownNetworks) :
    PassesForAddress network cs ↔ 11 ≤ cs.length := by
  rw [PassesForAddress, isAddressOf_other_iff h]
  exact or_iff_left fun hknown => h hknown.1

theorem accepts_iff (network address : String) :
    (ofNetwork network).accepts address = true ↔
      PassesForAddress (Text.toUpper network) address.toList := by
  unfold ofNetwork
  split
  · next h =>
    rw [h, ← isAddressOf_withoutLineBreak_iff (by decide), isAddressOf_eth_iff (.inl rfl)]
    rfl
  · next h =>
    rw [h, ← isAddressOf_withoutLineBreak_iff (by decide), isAddressOf_eth_iff (.inr rfl)]
    rfl
  · next h =>
    rw [h, ← isAddressOf_withoutLineBreak_iff (by decide), isAddressOf_btc_iff]
    rfl
  · next h =>
    rw [h, ← isAddressOf_withoutLineBreak_iff (by decide), isAddressOf_trx_iff]
    rfl
  · next heth hbsc hbtc htrx =>
    have hother : Text.toUpper network ∉ knownNetworks := by
      simp only [knownNetworks, List.mem_cons, List.not_mem_nil, or_false]
      rintro (h | h | h | h)
      · exact heth h
      · exact hbsc h
      · exact hbtc h
      · exact htrx h
    rw [passesForAddress_other_iff hother, accepts, decide_eq_true_eq, String.length_toList]

end AddressForm

/-! ## Rules -/

theorem Decimal.isPositive_iff {d : Decimal} : d.isPositive = true ↔ 0 < d.toRat := by
  have hpower : (0 : ℚ) < 10 ^ d.exponent := ten_zpow_pos _
  rw [toRat_eq, mul_pos_iff_of_pos_right hpower, Int.cast_pos]
  unfold isPositive isZero signed
  cases d.negative with
  | true => simp
  | false => simp [Nat.pos_iff_ne_zero]

namespace Withdrawal

/-- The rules for a withdrawal. -/
inductive Rule where
  | coinGiven
  | addressGiven
  | amountPositive
  | networkGiven
  | addressFits
deriving DecidableEq

namespace Rule

/-- In the order in which a withdrawal is checked by them. -/
def all : List Rule := [coinGiven, addressGiven, amountPositive, networkGiven, addressFits]

def field : Rule → String
  | coinGiven => "coin"
  | addressGiven => "address"
  | amountPositive => "amount"
  | networkGiven => "network"
  | addressFits => "address"

def IsGiven (text : String) : Prop := ∃ c ∈ text.toList, Text.isBlank c = false

def Holds (w : Withdrawal) : Rule → Prop
  | coinGiven => IsGiven w.coin
  | addressGiven => IsGiven w.address
  | amountPositive => 0 < w.amount.toRat
  | networkGiven => IsGiven w.network
  | addressFits => PassesForAddress (Text.toUpper w.network) w.address.toList

/-- Why a withdrawal that breaks the rule is refused. -/
def reason (w : Withdrawal) : Rule → String
  | coinGiven => emptyReason
  | addressGiven => emptyReason
  | amountPositive => positiveReason w.amount
  | networkGiven => emptyReason
  | addressFits => w.addressReason

def guard (w : Withdrawal) : Rule → Except Failure Unit
  | coinGiven => requireText "coin" w.coin
  | addressGiven => requireText "address" w.address
  | amountPositive => requirePositive w.amount
  | networkGiven => requireText "network" w.network
  | addressFits => w.checkAddress

theorem requireText_eq_ok_iff {field text : String} :
    requireText field text = .ok () ↔ IsGiven text := by
  unfold requireText Text.allBlank IsGiven
  split
  · next h => simpa [Failure.invalid] using h
  · next h => simpa using h

theorem guard_eq_ok_iff {w : Withdrawal} {rule : Rule} : guard w rule = .ok () ↔ rule.Holds w := by
  cases rule with
  | coinGiven => exact requireText_eq_ok_iff
  | addressGiven => exact requireText_eq_ok_iff
  | amountPositive =>
    rw [Holds, ← Decimal.isPositive_iff, guard, requirePositive]
    split <;> simp_all [Failure.invalid]
  | networkGiven => exact requireText_eq_ok_iff
  | addressFits =>
    rw [Holds, ← AddressForm.accepts_iff, guard, checkAddress]
    split <;> simp_all [Failure.invalid]

theorem eq_of_guard {w : Withdrawal} {rule : Rule} {failure : Failure}
    (h : guard w rule = .error failure) :
    failure = .gateway (.validation rule.field (rule.reason w)) := by
  cases rule with
  | coinGiven => exact eq_invalid_of_requireText h
  | addressGiven => exact eq_invalid_of_requireText h
  | amountPositive => exact eq_invalid_of_requirePositive h
  | networkGiven => exact eq_invalid_of_requireText h
  | addressFits => exact eq_invalid_of_checkAddress h

theorem guard_eq_error_iff {w : Withdrawal} {rule : Rule} {failure : Failure} :
    guard w rule = .error failure ↔
      ¬ rule.Holds w ∧ failure = .gateway (.validation rule.field (rule.reason w)) := by
  rw [← guard_eq_ok_iff]
  cases h : guard w rule with
  | ok u => simp
  | error found =>
    have hfound := eq_of_guard h
    simp [hfound, eq_comm]

end Rule

theorem check_eq_forM (w : Withdrawal) : w.check = forM Rule.all (Rule.guard w) := by
  simp only [check, Rule.all, List.forM_cons, List.forM_nil, Rule.guard]
  cases w.checkAddress <;> rfl

/-- A withdrawal passes if it keeps every rule. Otherwise the failure names the field of the first
rule that it breaks. -/
theorem check_eq_ok_or_first_broken (w : Withdrawal) :
    (w.check = .ok () ↔ ∀ rule ∈ Rule.all, rule.Holds w) ∧
      ∀ failure, w.check = .error failure ↔
        ∃ before rule after, Rule.all = before ++ rule :: after ∧ (∀ r ∈ before, r.Holds w) ∧
          ¬ rule.Holds w ∧ failure = .gateway (.validation rule.field (rule.reason w)) := by
  rw [check_eq_forM]
  refine ⟨?_, fun failure => ?_⟩
  · rw [forM_eq_ok_iff]
    exact forall₂_congr fun rule _ => Rule.guard_eq_ok_iff
  · rw [forM_eq_error_iff]
    simp only [Rule.guard_eq_ok_iff, Rule.guard_eq_error_iff]

/-- A withdrawal to an address with a line break behind it passes. -/
theorem check_of_line_break :
    let w : Withdrawal :=
      ⟨"USDT", "0x2222222222222222222222222222222222222222\n", ⟨false, 1, 0⟩, "ETH"⟩
    w.check = .ok () ∧ ¬ IsAddressOf (Text.toUpper w.network) w.address.toList := by
  intro w
  have hupper : Text.toUpper w.network = "ETH" := by decide
  have hknown : "ETH" ∈ knownNetworks := by decide
  refine ⟨by decide, ?_⟩
  rw [hupper]
  intro h
  exact absurd (by decide) (AddressForm.not_mem_of_isAddressOf hknown h)

end Withdrawal

end GatewayLedger
