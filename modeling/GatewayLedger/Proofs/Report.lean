import GatewayLedger.Proofs.Balance
import GatewayLedger.Proofs.Ledger.Range
import GatewayLedger.Proofs.Ledger.Reconciliation
import GatewayLedger.Proofs.Number.Rescale
import GatewayLedger.Report.Balances
import GatewayLedger.Report.Ledger
import GatewayLedger.Report.Statistics

/-!
# Which figures can be reported

A report writes its amounts with eight places in 28 digits, so it exists exactly if all amounts that
it shows stay below `10 ^ 20` when they are rounded. All other figures of a pass and of an account
can be reported, and all of them exist.
-/

namespace GatewayLedger

/-! ## Outcomes under a condition -/

/-- A value under a condition, and one fault without it. -/
structure SucceedsIff {ε α : Type} (P : Prop) (fault : ε) (x : Except ε α) : Prop where
  exists_of : P → ∃ a, x = .ok a
  eq_error : ¬ P → x = .error fault

namespace SucceedsIff

variable {ε α β : Type} {P Q : Prop} {fault : ε} {x : Except ε α} {f : α → Except ε β}

theorem congr (h : P ↔ Q) (hx : SucceedsIff P fault x) : SucceedsIff Q fault x :=
  ⟨fun hQ => hx.exists_of (h.mpr hQ), fun hQ => hx.eq_error fun hP => hQ (h.mp hP)⟩

theorem ok (hP : P) (fault : ε) (a : α) : SucceedsIff P fault (.ok a) :=
  ⟨fun _ => ⟨a, rfl⟩, fun h => absurd hP h⟩

theorem bind (hx : SucceedsIff P fault x) (hf : ∀ a, x = .ok a → SucceedsIff Q fault (f a)) :
    SucceedsIff (P ∧ Q) fault (x >>= f) := by
  by_cases hP : P
  · obtain ⟨a, rfl⟩ := hx.exists_of hP
    exact (hf a rfl).congr (by simp [hP])
  · rw [hx.eq_error hP]
    exact ⟨fun h => absurd h.1 hP, fun _ => rfl⟩

theorem bind_ok (hx : SucceedsIff P fault x) (g : α → β) :
    SucceedsIff P fault (x >>= fun a => .ok (g a)) :=
  (hx.bind fun a _ => ok trivial fault (g a)).congr (and_iff_left trivial)

/-- A list succeeds if each of its items does, and the first one that does not has the fault. -/
theorem mapM {as : List α} {P : α → Prop} (h : ∀ a ∈ as, SucceedsIff (P a) fault (f a)) :
    SucceedsIff (∀ a ∈ as, P a) fault (as.mapM f) := by
  induction as with
  | nil => exact ok (by simp) fault []
  | cons a rest ih =>
    have hrest := ih fun b hb => h b (List.mem_cons_of_mem a hb)
    rw [List.mapM_cons]
    have hboth := (h a List.mem_cons_self).bind fun b _ => hrest.bind_ok (b :: ·)
    exact hboth.congr List.forall_mem_cons.symm

end SucceedsIff

/-! ## Amounts -/

namespace Amount

/-- An amount that has at most 20 digits before the point once it is rounded to eight places. -/
def Fits (d : Decimal) : Prop := |d.toRat| + 5 / 10 ^ 9 < 10 ^ 20

theorem fits_iff {d : Decimal} : Fits d ↔ d.FitsAt (-8) := by
  have hplace : (10 : ℚ) ^ (-8 : Int) = 1 / 10 ^ 8 := by norm_num
  unfold Fits Decimal.FitsAt Decimal.precision
  rw [hplace]
  constructor
  · intro h
    linarith
  · intro h
    linarith

theorem fits_zero : Fits Decimal.zero := by
  rw [Fits, Decimal.toRat_zero]
  norm_num

theorem forall_fits_of_map_eq {α : Type} {as : List α} {amountOf : α → Decimal} {d : Decimal}
    (h : as.map amountOf = [d]) (hd : Fits d) : ∀ a ∈ as, Fits (amountOf a) := by
  intro a ha
  have hmem : amountOf a ∈ as.map amountOf := List.mem_map_of_mem ha
  rw [h, List.mem_singleton] at hmem
  exact hmem ▸ hd

theorem text_succeedsIff (d : Decimal) : SucceedsIff (Fits d) .tooManyDigits (text d) := by
  refine SucceedsIff.congr fits_iff.symm ?_
  unfold text
  constructor
  · intro h
    obtain ⟨r, hr⟩ := Decimal.exists_rescale h
    exact ⟨_, by rw [hr]; rfl⟩
  · intro h
    rw [Decimal.rescale_eq_invalid h]
    rfl

end Amount

theorem Record.IsNormalized.isAdmitted {clock : RowClock} {kind : Kind} {row : Fields} {r : Record}
    (h : IsNormalized clock kind row r) : Amount.isAdmitted r.amount = true := by
  obtain ⟨n, hn⟩ := h
  obtain ⟨status, time, -, -, rfl⟩ := Record.exists_of_ofRow hn
  exact Amount.isAdmitted_ofValue _

/-! ## Reports -/

namespace Report

open Amount (Fits)

theorem amountColumn_succeedsIff (width : Nat) (d : Decimal) :
    SucceedsIff (Fits d) .tooManyDigits (amountColumn width d) :=
  (Amount.text_succeedsIff d).bind_ok _

theorem ledger_succeedsIff (l : Ledger) (limit : Option Int) (asset : Option String) :
    SucceedsIff (∀ r ∈ limited limit l.records, Fits r.amount) .tooManyDigits
      (ledger l limit asset) := by
  refine (SucceedsIff.mapM fun r _ => ?_).bind_ok _
  exact (amountColumn_succeedsIff 18 r.amount).bind_ok _

theorem balanceLine_succeedsIff (b : Balance) :
    SucceedsIff (Fits b.free ∧ Fits b.locked ∧ Fits b.total) .tooManyDigits (balanceLine b) := by
  refine (amountColumn_succeedsIff 18 b.free).bind fun _ _ => ?_
  refine (amountColumn_succeedsIff 18 b.locked).bind fun _ _ => ?_
  exact (amountColumn_succeedsIff 18 b.total).bind_ok _

theorem balances_succeedsIff (bs : List Balance) :
    SucceedsIff (∀ b ∈ bs, Fits b.free ∧ Fits b.locked ∧ Fits b.total) .tooManyDigits
      (balances bs) :=
  (SucceedsIff.mapM fun b _ => balanceLine_succeedsIff b).bind_ok _

theorem summaryLines_succeedsIff (s : Summary) :
    SucceedsIff (Fits s.volumeOfDay ∧ Fits s.volumeOfWeek) .tooManyDigits (summaryLines s) := by
  refine (Amount.text_succeedsIff s.volumeOfDay).bind fun _ _ => ?_
  exact (Amount.text_succeedsIff s.volumeOfWeek).bind_ok _

theorem volumeLines_succeedsIff {v : Volume} {total : Decimal} (htotal : v.total = .ok total) :
    SucceedsIff ((∀ b ∈ v.buckets, Fits b.total) ∧ Fits total) .tooManyDigits (volumeLines v) := by
  unfold volumeLines
  cases hbuckets : v.buckets with
  | nil =>
    have hzero : total = Decimal.zero := by
      rw [Volume.total, hbuckets] at htotal
      exact (Except.ok.inj htotal).symm
    exact .ok ⟨by simp, hzero ▸ Amount.fits_zero⟩ _ _
  | cons b rest =>
    refine (SucceedsIff.mapM fun b _ => (amountColumn_succeedsIff 20 b.total).bind_ok _).bind ?_
    intro rows _
    rw [htotal]
    exact ((amountColumn_succeedsIff 20 total).bind_ok _).bind_ok _

theorem statistics_succeedsIff (s : Summary) {v : Volume} {total : Decimal}
    (htotal : v.total = .ok total) (d : Distribution) (asset : Option String) :
    SucceedsIff ((Fits s.volumeOfDay ∧ Fits s.volumeOfWeek) ∧
      (∀ b ∈ v.buckets, Fits b.total) ∧ Fits total) .tooManyDigits (statistics s v d asset) := by
  refine (summaryLines_succeedsIff s).bind fun _ _ => ?_
  exact (volumeLines_succeedsIff htotal).bind_ok _

end Report

namespace Reconciler

open Amount (Fits)

/-- A pass has a ledger exactly if every deposit and withdrawal has a status. The balances of an account
and the figures of a ledger always exist. A report of them exists exactly if the amounts that it shows
fit, and fails for their digits otherwise. -/
theorem reports_exist_iff_amounts_fit (r : Reconciler) {s : Sources} {clock : RowClock}
    (hs : s.AreJson) (hc : clock.IsUtc) (account : Value) :
    ((∃ l, (r.reconcile s clock).2 = .ok l) ↔ s.HaveStatus) ∧
      (∃ bs, Balance.ofPayload account = .ok bs ∧
        SucceedsIff (∀ b ∈ bs, Fits b.free ∧ Fits b.locked ∧ Fits b.total) .tooManyDigits
          (Report.balances bs)) ∧
      ∀ l, (r.reconcile s clock).2 = .ok l →
        (∀ limit asset, SucceedsIff (∀ r ∈ Report.limited limit l.records, Fits r.amount)
          .tooManyDigits (Report.ledger l limit asset)) ∧
        ∀ (now : Moment) (g : Granularity), now.IsUtc → 7 * Moment.microsPerDay ≤ now.reading →
          ∃ summary volume total distribution, Summary.ofRecords l.records now = .ok summary ∧
            Volume.ofRecords g l.records = .ok volume ∧ volume.total = .ok total ∧
            Distribution.ofRecords l.records = .ok distribution ∧
            ∀ asset, SucceedsIff
              ((Fits summary.volumeOfDay ∧ Fits summary.volumeOfWeek) ∧
                (∀ b ∈ volume.buckets, Fits b.total) ∧ Fits total)
              .tooManyDigits (Report.statistics summary volume distribution asset) := by
  have hresult : (r.reconcile s clock).2 = s.ledger clock := rfl
  rw [hresult]
  obtain ⟨bs, hbs, -⟩ := Balance.exists_ofPayload account
  refine ⟨hs.exists_ledger_iff hc.isAware, ⟨bs, hbs, Report.balances_succeedsIff bs⟩, ?_⟩
  intro l hl
  obtain ⟨records, others, hrecords, hothers, hordered⟩ :=
    hs.exists_ledger ((hs.exists_ledger_iff hc.isAware).mp ⟨l, hl⟩) hc.isAware
  obtain rfl : others = l := Except.ok.inj (hothers.symm.trans hl)
  refine ⟨Report.ledger_succeedsIff others, ?_⟩
  intro now g hnow hweek
  have hutc : ∀ r ∈ others.records, r.occurredAt.IsUtc := fun r hr =>
    hs.forall_records hrecords (fun _ _ _ hn => hn.isUtc hc) r (hordered.mem_iff.mp hr)
  have hadmitted : ∀ r ∈ others.records, Amount.isAdmitted r.amount = true := fun r hr =>
    hs.forall_records hrecords (fun _ _ _ hn => hn.isAdmitted) r (hordered.mem_iff.mp hr)
  have hclock : ∀ r ∈ others.records, r.occurredAt.comparable now = true := by
    intro r hr
    rw [Moment.comparable, Moment.isAware_of_isUtc (hutc r hr), Moment.isAware_of_isUtc hnow]
    rfl
  obtain ⟨summary, hsummary, -⟩ := Summary.exists_of_admitted hclock hadmitted hweek
  obtain ⟨volume, total, hvolume, htotal, -⟩ := Volume.exists_of_admitted hutc hadmitted g
  obtain ⟨distribution, hdistribution⟩ := Distribution.exists_ofRecords others.records
  exact ⟨summary, volume, total, distribution, hsummary, hvolume, htotal, hdistribution,
    Report.statistics_succeedsIff summary htotal distribution⟩

/-- One deposit of the year 1970, with an amount that is written as a text. -/
def sampleDeposit (amount : String) : Sources where
  deposits := .list [.object [("id", .text "a"), ("amount", .text amount), ("insertTime", .int 0)]]
  withdrawals := .list []
  payments := .list []

theorem haveStatus_sampleDeposit (amount : String) : (sampleDeposit amount).HaveStatus := by
  have hnone (row : Fields) (h : Value.field row "status" = .null) (kind : Kind) :
      Record.HasStatus kind row := by
    intro _ hexceeds
    rw [h] at hexceeds
    cases hexceeds.1
  refine Sources.haveStatus_iff.mpr ⟨?_, by simp [sampleDeposit, Value.rowsUnder]⟩
  intro row hrow
  obtain rfl := List.mem_singleton.mp hrow
  exact hnone _ rfl .deposit

theorem areJson_sampleDeposit (amount : String) : (sampleDeposit amount).AreJson := by
  refine ⟨.list ?_, .list (by simp), .list (by simp)⟩
  simpa using Value.IsJson.object (by simpa using ⟨.text _, .text _, .int _⟩)

/-- The largest amount with nine places that fits, and the figures of the day after it. -/
theorem reports_exist_of_largest_amount :
    let s := sampleDeposit "99999999999999999999.999999994"
    let clock := RowClock.still ⟨0, some 0, by decide⟩
    let now : Moment := ⟨Moment.epoch + Moment.microsPerDay, some 0, by decide⟩
    (s.AreJson ∧ clock.IsUtc ∧ now.IsUtc ∧ 7 * Moment.microsPerDay ≤ now.reading) ∧
      ∃ l summary volume distribution report statistics,
        (initial.reconcile s clock).2 = .ok l ∧ Report.ledger l none none = .ok report ∧
        Summary.ofRecords l.records now = .ok summary ∧
        Volume.ofRecords .day l.records = .ok volume ∧
        Distribution.ofRecords l.records = .ok distribution ∧
        Report.statistics summary volume distribution none = .ok statistics := by
  intro s clock now
  have hs : s.AreJson := areJson_sampleDeposit _
  have hc : clock.IsUtc := fun _ => rfl
  have hweek : 7 * Moment.microsPerDay ≤ now.reading := by decide
  have hlargest : Fits ⟨false, 99999999999999999999999999994, -9⟩ := by
    rw [Fits, Decimal.abs_toRat]
    norm_num
  have htotal : Fits ⟨false, 9999999999999999999999999999, -8⟩ := by
    rw [Fits, Decimal.abs_toRat]
    norm_num
  have hfigures : ((initial.reconcile s clock).2.bind fun l => do
      let summary ← Summary.ofRecords l.records now
      let volume ← Volume.ofRecords .day l.records
      let total ← volume.total
      .ok (l.records.map (·.amount), summary.volumeOfDay, summary.volumeOfWeek,
        volume.buckets.map (·.total), total)) =
      .ok ([⟨false, 99999999999999999999999999994, -9⟩], Decimal.zero, Decimal.zero,
        [⟨false, 9999999999999999999999999999, -8⟩], ⟨false, 9999999999999999999999999999, -8⟩) := by
    decide +kernel
  obtain ⟨hexists, -, hreports⟩ := initial.reports_exist_iff_amounts_fit hs hc .null
  obtain ⟨l, hl⟩ := hexists.mpr (haveStatus_sampleDeposit _)
  obtain ⟨hledger, hstatistics⟩ := hreports l hl
  obtain ⟨summary, volume, total, distribution, hsummary, hvolume, hsum, hdistribution, hrendered⟩ :=
    hstatistics now .day rfl hweek
  rw [hl] at hfigures
  simp only [Except.bind, hsummary, hvolume, hsum, bind, Except.ok.injEq, Prod.mk.injEq] at hfigures
  obtain ⟨hrecords, hday, hsevenDays, hbuckets, rfl⟩ := hfigures
  have hvolumes : Fits summary.volumeOfDay ∧ Fits summary.volumeOfWeek := by
    rw [hday, hsevenDays]
    exact ⟨Amount.fits_zero, Amount.fits_zero⟩
  obtain ⟨report, hreport⟩ :=
    (hledger none none).exists_of (Amount.forall_fits_of_map_eq hrecords hlargest)
  obtain ⟨statistics, hstatistics⟩ :=
    (hrendered none).exists_of ⟨hvolumes, Amount.forall_fits_of_map_eq hbuckets htotal, htotal⟩
  exact ⟨⟨hs, hc, rfl, hweek⟩, l, summary, volume, distribution, report, statistics, hl, hreport,
    hsummary, hvolume, hdistribution, hstatistics⟩

theorem no_report_of_ten_to_twenty :
    let s := sampleDeposit "1e20"
    let clock := RowClock.still ⟨0, some 0, by decide⟩
    (s.AreJson ∧ clock.IsUtc) ∧ ∃ l, (initial.reconcile s clock).2 = .ok l ∧
      Report.ledger l none none = .error .tooManyDigits := by
  intro s clock
  have hs : s.AreJson := areJson_sampleDeposit _
  have hc : clock.IsUtc := fun _ => rfl
  have hreport : ((initial.reconcile s clock).2.bind fun l => Report.ledger l none none) =
      .error .tooManyDigits := by decide +kernel
  obtain ⟨l, hl⟩ := (hs.exists_ledger_iff hc.isAware).mpr (haveStatus_sampleDeposit _)
  have hresult : (initial.reconcile s clock).2 = .ok l := by simp only [reconcile, hl]
  rw [hresult] at hreport
  exact ⟨⟨hs, hc⟩, l, hresult, hreport⟩

end Reconciler

end GatewayLedger
