import GatewayLedger.Exchange.Query
import GatewayLedger.Proofs.Text.Percent

/-!
# Reading back a query

A query splits into the names and texts of the parameters it was written from, in their order, as
long as the names hold neither an ampersand nor an equals sign. Texts may hold both, since they are
percent-encoded.
-/

namespace GatewayLedger.Query

variable {pairs : List (String × Value)} {pair : String × Value}

/-- A name that stands in a query as it is. -/
def IsName (name : String) : Prop := '&' ∉ name.toList ∧ '=' ∉ name.toList

instance (name : String) : Decidable (IsName name) := inferInstanceAs (Decidable (_ ∧ _))

theorem pieces_eq_splitOn (mark : Char) (cs : List Char) : pieces mark cs = cs.splitOn mark := by
  induction cs with
  | nil => rw [pieces, List.splitOn_nil]
  | cons c cs ih =>
    have hne : cs.splitOn mark ≠ [] := List.splitOn_ne_nil mark cs
    rw [pieces, List.splitOn_cons_eq_if_modifyHead, ih]
    cases hs : cs.splitOn mark with
    | nil => exact absurd hs hne
    | cons piece others => rfl

theorem not_mem_encode {c : Char} (hc : Text.Percent.isUnreserved c = false) (hne : c ≠ '%')
    (text : String) : c ∉ (Text.Percent.encode text).toList := by
  intro hmem
  rcases Text.Percent.isEncoded_of_mem_encode hmem with h | h
  · rw [hc] at h
    exact Bool.false_ne_true h
  · exact hne h

theorem toList_pairText (pair : String × Value) :
    (pairText pair).toList =
      pair.1.toList ++ '=' :: (Text.Percent.encode (valueText pair.2)).toList := by
  rw [pairText, String.toList_append, String.toList_append, List.append_assoc]
  rfl

theorem ampersand_not_mem_pairText (h : IsName pair.1) : '&' ∉ (pairText pair).toList := by
  have htext := not_mem_encode (c := '&') (by decide) (by decide) (valueText pair.2)
  rw [toList_pairText, List.mem_append, List.mem_cons]
  rintro (hname | heq | hvalue)
  · exact h.1 hname
  · exact absurd heq (by decide)
  · exact htext hvalue

/-- The first equals sign of a pair is the one behind its name. -/
theorem splitPair_pairText (h : IsName pair.1) :
    splitPair (pairText pair).toList = (pair.1, valueText pair.2) := by
  have hname : ∀ c ∈ pair.1.toList, (c != '=') = true := by
    intro c hc
    have hne : c ≠ '=' := fun he => h.2 (he ▸ hc)
    simpa using hne
  rw [splitPair, toList_pairText, List.takeWhile_append_of_pos hname,
    List.dropWhile_append_of_pos hname]
  simp [Text.Percent.decode_encode]

theorem toList_canonical (pairs : List (String × Value)) :
    (canonical pairs).toList = ['&'].intercalate (pairs.map fun p => (pairText p).toList) := by
  rw [canonical, String.toList_intercalate, List.map_map]
  rfl

theorem canonical_ne_empty (h : pairs ≠ []) : canonical pairs ≠ "" := by
  intro he
  have hchars : (canonical pairs).toList = [] := by rw [he]; rfl
  cases pairs with
  | nil => exact h rfl
  | cons p rest =>
    rw [toList_canonical, List.map_cons] at hchars
    have hmem : '=' ∈ ['&'].intercalate
        ((pairText p).toList :: rest.map fun p => (pairText p).toList) := by
      have hpair : '=' ∈ (pairText p).toList := by simp [toList_pairText]
      cases rest with
      | nil => simpa using hpair
      | cons q rest => simp [List.intercalate_cons_cons, hpair]
    rw [hchars] at hmem
    cases hmem

theorem split_canonical (h : ∀ p ∈ pairs, IsName p.1) :
    split (canonical pairs) = pairs.map fun p => (p.1, valueText p.2) := by
  by_cases hnil : pairs = []
  · subst pairs
    rfl
  have hempty : (canonical pairs == "") = false := by simpa using canonical_ne_empty hnil
  have hpieces : pieces '&' (canonical pairs).toList =
      pairs.map fun p => (pairText p).toList := by
    have hmarks : ∀ cs ∈ pairs.map (fun p => (pairText p).toList), '&' ∉ cs := by
      intro cs hcs
      obtain ⟨p, hp, rfl⟩ := List.mem_map.mp hcs
      exact ampersand_not_mem_pairText (h p hp)
    rw [pieces_eq_splitOn, toList_canonical]
    exact List.splitOn_intercalate '&' hmarks (by simpa using hnil)
  rw [split, hempty, if_neg Bool.false_ne_true, hpieces, List.map_map]
  exact List.map_congr_left fun p hp => splitPair_pairText (h p hp)

end GatewayLedger.Query
