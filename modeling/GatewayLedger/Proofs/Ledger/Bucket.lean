import GatewayLedger.Ledger.Volume
import GatewayLedger.Proofs.Ledger.Order
import GatewayLedger.Proofs.Ledger.Period
import GatewayLedger.Proofs.Number.Addition
import Mathlib.Data.List.Nodup

/-!
# Buckets of the records seen so far

Going through records from the oldest on, the buckets at any point describe exactly the records seen
until then: one bucket for each of their periods, in the order of time, with the number and the sum of
the amounts of its records.
-/

namespace GatewayLedger

namespace Record

def periodOf (g : Granularity) (r : Record) : Period := Period.of g r.occurredAt

def keyOf (g : Granularity) (r : Record) : String := (r.periodOf g).key

def indexOf (g : Granularity) (r : Record) : Nat := g.index r.occurredAt

/-- The amounts of the records in a period, in their order. -/
def amountsIn (g : Granularity) (p : Period) (records : List Record) : List Decimal :=
  (records.filter fun r => r.periodOf g = p).map (·.amount)

theorem amountsIn_snoc (g : Granularity) (p : Period) (records : List Record) (r : Record) :
    amountsIn g p (records ++ [r]) =
      if r.periodOf g = p then amountsIn g p records ++ [r.amount] else amountsIn g p records := by
  rw [amountsIn, List.filter_append, List.map_append]
  by_cases h : r.periodOf g = p
  · rw [if_pos h]
    simp [amountsIn, h]
  · rw [if_neg h]
    simp [amountsIn, h]

end Record

namespace Bucket

variable {g : Granularity} {p : Period} {x : Decimal} {b : Bucket}
variable {buckets earlier later : List Bucket}

theorem add_of_not_mem (h : p ∉ buckets.map (·.period)) :
    add p x buckets = (addAmounts Decimal.zero x).map fun t => buckets ++ [⟨p, t, 1⟩] := by
  induction buckets with
  | nil =>
    unfold add
    cases addAmounts Decimal.zero x <;> rfl
  | cons b rest ih =>
    rw [List.map_cons, List.mem_cons, not_or] at h
    rw [add, if_neg (Ne.symm h.1), ih h.2]
    cases addAmounts Decimal.zero x <;> rfl

theorem add_append (h : b.period ∉ earlier.map (·.period)) :
    add b.period x (earlier ++ b :: later) =
      (addAmounts b.total x).map fun t => earlier ++ ⟨b.period, t, b.count + 1⟩ :: later := by
  induction earlier with
  | nil =>
    rw [List.nil_append, add, if_pos rfl]
    cases addAmounts b.total x <;> rfl
  | cons first rest ih =>
    rw [List.map_cons, List.mem_cons, not_or] at h
    rw [List.cons_append, add, if_neg (Ne.symm h.1), ih h.2]
    cases addAmounts b.total x <;> rfl

/-- Every moment of one period comes before every moment of the other. -/
def Before (g : Granularity) (p q : Period) : Prop :=
  ∀ a b : Moment, Period.of g a = p → Period.of g b = q → g.index a < g.index b

/-- The buckets of the records seen so far. -/
structure Describe (g : Granularity) (seen : List Record) (buckets : List Bucket) : Prop where
  mem_iff : ∀ p, p ∈ buckets.map (·.period) ↔ ∃ r ∈ seen, r.periodOf g = p
  ascending : (buckets.map (·.period)).Pairwise (Before g)
  count_eq : ∀ b ∈ buckets, b.count = seen.countP fun r => r.periodOf g = b.period
  total_eq : ∀ b ∈ buckets, sumAmounts (Record.amountsIn g b.period seen) = .ok b.total

namespace Describe

variable {seen : List Record} {r : Record}

theorem nodup (h : Describe g seen buckets) : (buckets.map (·.period)).Nodup := by
  refine List.Pairwise.imp_of_mem ?_ h.ascending
  intro p q hp _ hbefore
  rintro rfl
  obtain ⟨r, _, hr⟩ := (h.mem_iff p).mp hp
  exact Nat.lt_irrefl _ (hbefore r.occurredAt r.occurredAt hr hr)

theorem exists_of_mem (h : Describe g seen buckets) {b : Bucket} (hb : b ∈ buckets) :
    ∃ r ∈ seen, r.periodOf g = b.period :=
  (h.mem_iff b.period).mp (List.mem_map_of_mem hb)

theorem amountsIn_eq_nil (h : Describe g seen buckets) (hp : p ∉ buckets.map (·.period)) :
    Record.amountsIn g p seen = [] := by
  have hnone : ∀ s ∈ seen, ¬ s.periodOf g = p := by
    intro s hs heq
    exact hp ((h.mem_iff p).mpr ⟨s, hs, heq⟩)
  rw [Record.amountsIn, List.filter_eq_nil_iff.mpr (by simpa using hnone), List.map_nil]

theorem not_mem_others {b : Bucket} (h : Describe g seen (earlier ++ b :: later)) :
    b.period ∉ earlier.map (·.period) ∧ b.period ∉ later.map (·.period) := by
  have hnodup := h.nodup
  rw [List.map_append, List.map_cons, List.nodup_middle, List.nodup_cons, List.mem_append, not_or]
    at hnodup
  exact hnodup.1

/-- A record of no period so far comes after all records seen, if it is not older than them. -/
theorem before_of_not_mem (h : Describe g seen buckets)
    (hnew : r.periodOf g ∉ buckets.map (·.period)) (hlast : ∀ s ∈ seen, s.indexOf g ≤ r.indexOf g) :
    ∀ p ∈ buckets.map (·.period), Before g p (r.periodOf g) := by
  intro p hp a c ha hc
  obtain ⟨s, hs, hperiod⟩ := (h.mem_iff p).mp hp
  have hne : s.indexOf g ≠ r.indexOf g := by
    intro heq
    have hsame : s.periodOf g = r.periodOf g := Granularity.of_eq_iff.mpr heq
    rw [← hsame, hperiod] at hnew
    exact hnew hp
  have hsa : s.indexOf g = g.index a := Granularity.of_eq_iff.mp (hperiod.trans ha.symm)
  have hrc : g.index c = r.indexOf g := Granularity.of_eq_iff.mp hc
  have hle := hlast s hs
  omega

theorem mem_iff_snoc (h : Describe g seen buckets) (p : Period) :
    (p ∈ buckets.map (·.period) ∨ p = r.periodOf g) ↔ ∃ s ∈ seen ++ [r], s.periodOf g = p := by
  rw [h.mem_iff p]
  simp only [List.mem_append, List.mem_singleton]
  constructor
  · rintro (⟨s, hs, hp⟩ | rfl)
    · exact ⟨s, .inl hs, hp⟩
    · exact ⟨r, .inr rfl, rfl⟩
  · rintro ⟨s, hs | rfl, hp⟩
    · exact .inl ⟨s, hs, hp⟩
    · exact .inr hp.symm

/-- What a bucket says is not changed by a record of another period. -/
theorem count_snoc_of_ne {b : Bucket} (hb : b.count = seen.countP fun s => s.periodOf g = b.period)
    (hne : r.periodOf g ≠ b.period) :
    b.count = (seen ++ [r]).countP fun s => s.periodOf g = b.period := by
  rw [List.countP_append, ← hb, List.countP_singleton, if_neg (by simpa using hne), Nat.add_zero]

theorem snoc_new (h : Describe g seen buckets) (hnew : r.periodOf g ∉ buckets.map (·.period))
    (hlast : ∀ s ∈ seen, s.indexOf g ≤ r.indexOf g) {t : Decimal}
    (ht : addAmounts Decimal.zero r.amount = .ok t) :
    Describe g (seen ++ [r]) (buckets ++ [⟨r.periodOf g, t, 1⟩]) := by
  have hnone : ∀ s ∈ seen, ¬ s.periodOf g = r.periodOf g := by
    intro s hs heq
    exact hnew ((h.mem_iff _).mpr ⟨s, hs, heq⟩)
  have hother : ∀ b ∈ buckets, r.periodOf g ≠ b.period := by
    intro b hb heq
    exact hnew (heq ▸ List.mem_map_of_mem hb)
  constructor
  · intro p
    rw [← h.mem_iff_snoc]
    simp
  · rw [List.map_append, List.pairwise_append]
    refine ⟨h.ascending, List.pairwise_singleton _ _, ?_⟩
    intro p hp q hq
    obtain rfl := List.mem_singleton.mp hq
    exact h.before_of_not_mem hnew hlast p hp
  · intro b hb
    rcases List.mem_append.mp hb with hb | hb
    · exact count_snoc_of_ne (h.count_eq b hb) (hother b hb)
    · obtain rfl := List.mem_singleton.mp hb
      have hzero : (seen.countP fun s => s.periodOf g = r.periodOf g) = 0 := by
        rw [List.countP_eq_zero]
        simpa using hnone
      rw [List.countP_append, hzero, List.countP_singleton]
      simp
  · intro b hb
    rw [Record.amountsIn_snoc]
    rcases List.mem_append.mp hb with hb | hb
    · rw [if_neg (hother b hb)]
      exact h.total_eq b hb
    · obtain rfl := List.mem_singleton.mp hb
      rw [if_pos rfl, h.amountsIn_eq_nil hnew, sumAmounts_snoc]
      exact ht

theorem snoc_known {b : Bucket} (h : Describe g seen (earlier ++ b :: later))
    (hr : r.periodOf g = b.period) {t : Decimal} (ht : addAmounts b.total r.amount = .ok t) :
    Describe g (seen ++ [r]) (earlier ++ ⟨b.period, t, b.count + 1⟩ :: later) := by
  have hperiods : (earlier ++ ⟨b.period, t, b.count + 1⟩ :: later).map (·.period) =
      (earlier ++ b :: later).map (·.period) := by
    rw [List.map_append, List.map_append]
    rfl
  have hother : ∀ c ∈ earlier ++ later, r.periodOf g ≠ c.period := by
    obtain ⟨hearlier, hlater⟩ := h.not_mem_others
    intro c hc heq
    rw [← hr, heq] at hearlier hlater
    rcases List.mem_append.mp hc with hc | hc
    · exact hearlier (List.mem_map_of_mem hc)
    · exact hlater (List.mem_map_of_mem hc)
  have hold : ∀ c ∈ earlier ++ later, c ∈ earlier ++ b :: later := by
    intro c hc
    rcases List.mem_append.mp hc with hc | hc
    · exact List.mem_append_left _ hc
    · exact List.mem_append_right _ (List.mem_cons_of_mem _ hc)
  have hsplit : ∀ c ∈ earlier ++ (⟨b.period, t, b.count + 1⟩ :: later : List Bucket),
      c = ⟨b.period, t, b.count + 1⟩ ∨ c ∈ earlier ++ later := by
    intro c hc
    simp only [List.mem_append, List.mem_cons] at hc ⊢
    tauto
  have hb : b ∈ earlier ++ b :: later := List.mem_append_right _ List.mem_cons_self
  constructor
  · intro p
    rw [hperiods, ← h.mem_iff_snoc]
    constructor
    · exact .inl
    · rintro (hp | rfl)
      · exact hp
      · exact hr ▸ List.mem_map_of_mem hb
  · rw [hperiods]
    exact h.ascending
  · intro c hc
    rcases hsplit c hc with rfl | hc
    · rw [List.countP_append, ← h.count_eq b hb, List.countP_singleton, if_pos (by simpa using hr)]
    · exact count_snoc_of_ne (h.count_eq c (hold c hc)) (hother c hc)
  · intro c hc
    rw [Record.amountsIn_snoc]
    rcases hsplit c hc with rfl | hc
    · rw [if_pos hr, sumAmounts_snoc, h.total_eq b hb]
      exact ht
    · rw [if_neg (hother c hc)]
      exact h.total_eq c (hold c hc)

/-- What one more record does to the buckets: they describe it too, or the sum of its period does not
exist. -/
theorem addRecord_cases (h : Describe g seen buckets)
    (hlast : ∀ s ∈ seen, s.indexOf g ≤ r.indexOf g) :
    (∃ after, Volume.addRecord g buckets r = .ok after ∧ Describe g (seen ++ [r]) after) ∨
      (Volume.addRecord g buckets r = .error .amountOverflow ∧
        sumAmounts (Record.amountsIn g (r.periodOf g) (seen ++ [r])) = .error .amountOverflow) := by
  rw [Record.amountsIn_snoc, if_pos rfl, sumAmounts_snoc]
  by_cases hmem : r.periodOf g ∈ buckets.map (·.period)
  · obtain ⟨b, hb, hperiod⟩ := List.mem_map.mp hmem
    obtain ⟨earlier, later, rfl⟩ := List.append_of_mem hb
    have hadd : Volume.addRecord g (earlier ++ b :: later) r =
        (addAmounts b.total r.amount).map fun t =>
          earlier ++ ⟨b.period, t, b.count + 1⟩ :: later := by
      have hsame : Period.of g r.occurredAt = b.period := hperiod.symm
      rw [Volume.addRecord, hsame, add_append h.not_mem_others.1]
    have hsum : sumAmounts (Record.amountsIn g (r.periodOf g) seen) = .ok b.total := by
      rw [← hperiod]
      exact h.total_eq b hb
    rw [hadd, hsum]
    cases ht : addAmounts b.total r.amount with
    | ok t => exact .inl ⟨_, rfl, h.snoc_known hperiod.symm ht⟩
    | error fault =>
      rw [eq_amountOverflow_of_addAmounts ht]
      exact .inr ⟨rfl, by rw [Except.bind, ht, eq_amountOverflow_of_addAmounts ht]⟩
  · have hadd : Volume.addRecord g buckets r =
        (addAmounts Decimal.zero r.amount).map fun t => buckets ++ [⟨r.periodOf g, t, 1⟩] :=
      add_of_not_mem hmem
    have hempty : sumAmounts (Record.amountsIn g (r.periodOf g) seen) = .ok Decimal.zero := by
      rw [h.amountsIn_eq_nil hmem]
      rfl
    rw [hadd, hempty]
    cases ht : addAmounts Decimal.zero r.amount with
    | ok t => exact .inl ⟨_, rfl, h.snoc_new hmem hlast ht⟩
    | error fault =>
      rw [eq_amountOverflow_of_addAmounts ht]
      exact .inr ⟨rfl, by rw [Except.bind, ht, eq_amountOverflow_of_addAmounts ht]⟩

end Describe

theorem sumAmounts_snoc_error {seen : List Record} {r : Record} {fault : Fault}
    (h : sumAmounts (Record.amountsIn g p seen) = .error fault) :
    sumAmounts (Record.amountsIn g p (seen ++ [r])) = .error fault := by
  rw [Record.amountsIn_snoc]
  split
  · rw [sumAmounts_snoc, h]
    rfl
  · exact h

/-- Records from the oldest on are described by their buckets, unless some period has no sum. -/
theorem describe_or_overflow {seen : List Record}
    (hordered : seen.Pairwise fun a b => a.indexOf g ≤ b.indexOf g) :
    (∃ buckets, seen.foldlM (Volume.addRecord g) [] = .ok buckets ∧ Describe g seen buckets) ∨
      (seen.foldlM (Volume.addRecord g) [] = .error .amountOverflow ∧ ∃ r ∈ seen,
        sumAmounts (Record.amountsIn g (r.periodOf g) seen) = .error .amountOverflow) := by
  induction seen using List.reverseRecOn with
  | nil => exact .inl ⟨[], rfl, by simp, List.Pairwise.nil, by simp, by simp⟩
  | append_singleton seen r ih =>
    rw [List.pairwise_append] at hordered
    obtain ⟨hseen, _, hlast⟩ := hordered
    rw [List.foldlM_append]
    simp only [List.foldlM_cons, List.foldlM_nil, bind_pure]
    rcases ih hseen with ⟨buckets, hfold, hdescribe⟩ | ⟨hfold, s, hs, hsum⟩
    · rw [hfold]
      rcases hdescribe.addRecord_cases (r := r) fun s hs => hlast s hs r (by simp) with
        ⟨after, hadd, hafter⟩ | ⟨hadd, hsum⟩
      · exact .inl ⟨after, hadd, hafter⟩
      · exact .inr ⟨hadd, r, by simp, hsum⟩
    · rw [hfold]
      exact .inr ⟨rfl, s, List.mem_append_left _ hs, sumAmounts_snoc_error hsum⟩

theorem countP_mem_cons {α β : Type} [DecidableEq β] (f : α → β) {k : β} {keys : List β}
    (hk : k ∉ keys) (items : List α) : (items.countP fun a => f a ∈ k :: keys) =
      (items.countP fun a => f a = k) + items.countP fun a => f a ∈ keys := by
  induction items with
  | nil => rfl
  | cons a items ih =>
    rw [List.countP_cons, List.countP_cons, List.countP_cons, ih]
    simp only [decide_eq_true_eq, List.mem_cons]
    by_cases ha : f a = k
    · have hnot : f a ∉ keys := ha ▸ hk
      rw [if_pos ha, if_neg hnot, if_pos (.inl ha)]
      omega
    · by_cases hmem : f a ∈ keys
      · rw [if_neg ha, if_pos hmem, if_pos (.inr hmem)]
        omega
      · rw [if_neg ha, if_neg hmem, if_neg (not_or.mpr ⟨ha, hmem⟩)]
        omega

/-- Counting key by key counts every item whose key is one of them. -/
theorem sum_countP_eq {α β : Type} [DecidableEq β] (f : α → β) {keys : List β} (h : keys.Nodup)
    (items : List α) :
    (keys.map fun k => items.countP fun a => f a = k).sum = items.countP fun a => f a ∈ keys := by
  induction keys with
  | nil => simp
  | cons k keys ih =>
    obtain ⟨hk, hkeys⟩ := List.nodup_cons.mp h
    rw [List.map_cons, List.sum_cons, ih hkeys, countP_mem_cons f hk]

end Bucket

namespace Bucket.Describe

variable {g : Granularity} {seen : List Record} {buckets : List Bucket} {b : Bucket} {r : Record}

theorem keyOf_eq_iff (h : Describe g seen buckets) (hb : b ∈ buckets) :
    r.keyOf g = b.period.key ↔ r.periodOf g = b.period := by
  obtain ⟨s, _, hs⟩ := h.exists_of_mem hb
  rw [← hs]
  exact Granularity.key_eq_iff

theorem sum_count (h : Describe g seen buckets) (chosen : Bucket → Bool) :
    ((buckets.filter chosen).map (·.count)).sum =
      seen.countP fun r => r.periodOf g ∈ (buckets.filter chosen).map (·.period) := by
  have hsub : ((buckets.filter chosen).map (·.period)).Nodup :=
    (List.filter_sublist.map _).nodup h.nodup
  have hcounts : (buckets.filter chosen).map (·.count) =
      ((buckets.filter chosen).map (·.period)).map fun p =>
        seen.countP fun r => r.periodOf g = p := by
    rw [List.map_map]
    exact List.map_congr_left fun b hb => h.count_eq b (List.mem_of_mem_filter hb)
  rw [hcounts]
  exact sum_countP_eq (Record.periodOf g) hsub seen

theorem count_pos (h : Describe g seen buckets) (hb : b ∈ buckets) : 0 < b.count := by
  obtain ⟨r, hr, hperiod⟩ := h.exists_of_mem hb
  rw [h.count_eq b hb, List.countP_pos_iff]
  exact ⟨r, hr, by simpa using hperiod⟩

theorem nodup_keys (h : Describe g seen buckets) : (buckets.map fun b => b.period.key).Nodup := by
  have hkeys : (buckets.map fun b => b.period.key) = (buckets.map (·.period)).map Period.key := by
    rw [List.map_map]
    rfl
  rw [hkeys]
  apply List.Nodup.map_on _ h.nodup
  intro p hp q hq hkey
  obtain ⟨b, hb, rfl⟩ := List.mem_map.mp hp
  obtain ⟨c, hc, rfl⟩ := List.mem_map.mp hq
  obtain ⟨r, _, hr⟩ := h.exists_of_mem hb
  have hbc : r.keyOf g = c.period.key := ((h.keyOf_eq_iff hb).mpr hr).trans hkey
  exact hr.symm.trans ((h.keyOf_eq_iff hc).mp hbc)

end Bucket.Describe

end GatewayLedger
