import GatewayLedger.Proofs.Ledger.Order
import GatewayLedger.Proofs.Normalization
import GatewayLedger.Proofs.Value.Rows

/-!
# One pass of a reconciliation

Whatever JSON the exchange sends, a pass succeeds unless the status of a deposit or a withdrawal is a
number that memory cannot hold. Its ledger holds one record for each row of the three payloads, the
newest first. Records of one instant keep the order deposits, withdrawals, payments, and within each
of these lists the order of the rows.
-/

namespace GatewayLedger

namespace Value

end Value

namespace Sources

structure AreJson (s : Sources) : Prop where
  deposits : s.deposits.IsJson
  withdrawals : s.withdrawals.IsJson
  payments : s.payments.IsJson

/-- Every deposit and every withdrawal has a status. -/
def HaveStatus (s : Sources) : Prop := ∀ p ∈ s.rows, Record.HasStatus p.1 p.2

variable {s : Sources} {clock : RowClock}

theorem haveStatus_iff : s.HaveStatus ↔
    (∀ row ∈ s.deposits.rowsUnder "data", Record.HasStatus .deposit row) ∧
      ∀ row ∈ s.withdrawals.rowsUnder "data", Record.HasStatus .withdrawal row := by
  simp only [HaveStatus, rows, List.mem_append, List.mem_map]
  constructor
  · intro h
    exact ⟨fun row hr => h _ (.inl (.inl ⟨row, hr, rfl⟩)),
      fun row hr => h _ (.inl (.inr ⟨row, hr, rfl⟩))⟩
  · rintro ⟨hd, hw⟩ p ((⟨row, hr, rfl⟩ | ⟨row, hr, rfl⟩) | ⟨row, hr, rfl⟩)
    · exact hd row hr
    · exact hw row hr
    · exact fun hkind => absurd rfl hkind

theorem AreJson.areJson_of_mem_rows (h : s.AreJson) {p : Kind × Fields} (hp : p ∈ s.rows) :
    p.2.AreJson := by
  simp only [rows, List.mem_append, List.mem_map] at hp
  obtain (⟨row, hr, rfl⟩ | ⟨row, hr, rfl⟩) | ⟨row, hr, rfl⟩ := hp
  · exact Value.areJson_of_mem_rowsUnder h.deposits _ hr
  · exact Value.areJson_of_mem_rowsUnder h.withdrawals _ hr
  · exact Value.areJson_of_mem_rowsUnder h.payments _ hr

theorem AreJson.exists_records (h : s.AreJson) (hs : s.HaveStatus) (clock : RowClock) :
    ∃ deposits withdrawals payments,
      s.records clock = .ok (deposits ++ withdrawals ++ payments) ∧
      List.Forall₂ (Record.IsNormalized clock .deposit) (s.deposits.rowsUnder "data") deposits ∧
      List.Forall₂ (Record.IsNormalized clock .withdrawal) (s.withdrawals.rowsUnder "data")
        withdrawals ∧
      List.Forall₂ (Record.IsNormalized clock .payment) (s.payments.rowsUnder "data") payments := by
  obtain ⟨records, hr, hf⟩ :=
    Record.forall₂_ofKindRows clock (fun p hp => h.areJson_of_mem_rows hp) hs
  obtain ⟨front, payments, rfl, hfront, hpayments⟩ := Record.exists_append_of_forall₂ hf
  obtain ⟨deposits, withdrawals, rfl, hdeposits, hwithdrawals⟩ :=
    Record.exists_append_of_forall₂ hfront
  rw [List.forall₂_map_left_iff] at hdeposits hwithdrawals hpayments
  exact ⟨deposits, withdrawals, payments, hr, hdeposits, hwithdrawals, hpayments⟩

theorem AreJson.records_eq_error (h : s.AreJson) (hs : ¬ s.HaveStatus) (clock : RowClock) :
    s.records clock = .error .outOfMemory :=
  Record.ofKindRows_eq_error clock (fun _ hp => h.areJson_of_mem_rows hp) hs

theorem AreJson.haveStatus (h : s.AreJson) {records : List Record}
    (hr : s.records clock = .ok records) : s.HaveStatus := by
  by_contra hs
  cases (h.records_eq_error hs clock).symm.trans hr

/-- What is true of every record that rows of any kind are normalized to is true of the records of a
pass. -/
theorem AreJson.forall_records (h : s.AreJson) {records : List Record}
    (hr : s.records clock = .ok records) {P : Record → Prop}
    (hP : ∀ kind row r, Record.IsNormalized clock kind row r → P r) : ∀ r ∈ records, P r := by
  obtain ⟨others, ho, hf⟩ := Record.forall₂_ofKindRows clock
    (fun p hp => h.areJson_of_mem_rows hp) (h.haveStatus hr)
  obtain rfl : records = others := Except.ok.inj (hr.symm.trans ho)
  intro r hmem
  obtain ⟨p, _, hn⟩ := mem_of_forall₂ hf hmem
  exact hP p.1 p.2 r hn

theorem AreJson.exists_ledger (h : s.AreJson) (hs : s.HaveStatus) (hc : clock.IsAware) :
    ∃ records l, s.records clock = .ok records ∧ s.ledger clock = .ok l ∧
      Record.IsNewestFirst records l.records := by
  obtain ⟨deposits, withdrawals, payments, hr, -⟩ := h.exists_records hs clock
  have haware := h.forall_records hr fun kind row r hn => hn.isAware hc
  obtain ⟨l, hl, ho⟩ := Ledger.exists_build_isNewestFirst (Record.haveOneClock_of_isAware haware)
  exact ⟨_, l, hr, by simp only [ledger, hr, hl, bind, Except.bind], ho⟩

theorem AreJson.ledger_eq_error (h : s.AreJson) (hs : ¬ s.HaveStatus) (clock : RowClock) :
    s.ledger clock = .error .outOfMemory := by
  simp only [ledger, h.records_eq_error hs clock, bind, Except.bind]

theorem AreJson.exists_ledger_iff (h : s.AreJson) (hc : clock.IsAware) :
    (∃ l, s.ledger clock = .ok l) ↔ s.HaveStatus := by
  constructor
  · rintro ⟨l, hl⟩
    by_contra hs
    cases (h.ledger_eq_error hs clock).symm.trans hl
  · intro hs
    obtain ⟨_, l, _, hl, _⟩ := h.exists_ledger hs hc
    exact ⟨l, hl⟩

end Sources

namespace Reconciler

end Reconciler

end GatewayLedger
