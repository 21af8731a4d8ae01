import GatewayLedger.Command.Run
import GatewayLedger.Proofs.Ledger.Index
import GatewayLedger.Proofs.Text.Uppercase

/-!
# The ledgers of the assets

The ledger of an asset holds the records of that asset in the order of the whole ledger, since sorting
what is in order changes nothing. The assets of a ledger share out its records, and the command for
statistics warns of a ledger with more than one of them.
-/

namespace GatewayLedger

theorem one_lt_length_eraseDups_iff {α : Type} [BEq α] [LawfulBEq α] {xs : List α} :
    1 < xs.eraseDups.length ↔ ∃ a ∈ xs, ∃ b ∈ xs, a ≠ b := by
  cases xs with
  | nil => simp
  | cons x xs =>
    have hrest : 1 < (x :: xs).eraseDups.length ↔ ∃ b ∈ xs, b ≠ x := by
      rw [List.eraseDups_cons, List.length_cons, Nat.lt_add_left_iff_pos, List.length_pos_iff_exists_mem]
      simp
    rw [hrest]
    constructor
    · rintro ⟨b, hb, hne⟩
      exact ⟨b, List.mem_cons_of_mem x hb, x, List.mem_cons_self, hne⟩
    · rintro ⟨a, ha, b, hb, hne⟩
      by_cases hax : a = x
      · refine ⟨b, (List.mem_cons.mp hb).resolve_left ?_, ?_⟩
        · rintro rfl
          exact hne hax
        · rintro rfl
          exact hne hax
      · exact ⟨a, (List.mem_cons.mp ha).resolve_left hax, hax⟩

namespace Ledger

variable {l sub : Ledger} {records ordered : List Record} {r : Record} {asset other name : String}

/-! ## One asset -/

theorem get?_ofOrdered_eq_find? (ordered : List Record) (id : String) :
    (ofOrdered ordered).get? id = ordered.find? fun r => r.id == id := by
  apply Option.ext
  intro r
  rw [get?_ofOrdered_eq_some_iff, List.find?_eq_some_iff_append]
  constructor
  · rintro ⟨before, after, hsplit, hid, hbefore⟩
    exact ⟨by simpa using hid, before, after, hsplit, fun s hs => by simpa using hbefore s hs⟩
  · rintro ⟨hid, before, after, hsplit, hbefore⟩
    exact ⟨before, after, hsplit, by simpa using hid, fun s hs => by simpa using hbefore s hs⟩

/-- The records whose asset is the given one, in any case. -/
def recordsOf (l : Ledger) (asset : String) : List Record :=
  l.records.filter fun r => Text.toUpper r.asset == Text.toUpper asset

theorem mem_recordsOf_iff :
    r ∈ l.recordsOf asset ↔ r ∈ l.records ∧ Text.toUpper r.asset = Text.toUpper asset := by
  rw [recordsOf, List.mem_filter, beq_iff_eq]

theorem build_of_pairwise (hclock : Record.haveOneClock ordered = true)
    (hordered : ordered.Pairwise fun a b => b.occurredAt.instant ≤ a.occurredAt.instant) :
    build ordered = .ok (ofOrdered ordered) := by
  have hsorted : ordered.Pairwise fun a b => Record.notNewer b a := by
    simpa [Record.notNewer] using hordered
  rw [build_of_haveOneClock hclock, List.mergeSort_of_pairwise hsorted]

/-- Part of a ledger is in order already. -/
theorem IsBuilt.forAsset_eq (h : l.IsBuilt) (asset : String) :
    l.forAsset asset = .ok (ofOrdered (l.recordsOf asset)) := by
  obtain ⟨ordered, rfl, hclock, hordered⟩ := h
  have hpart : Record.haveOneClock ((ofOrdered ordered).recordsOf asset) = true :=
    Record.haveOneClock_of_subset hclock (List.filter_subset_self _)
  exact build_of_pairwise hpart (hordered.filter _)

/-- The ledger of one asset, taken from another ledger. -/
structure IsOfAsset (l : Ledger) (asset : String) (sub : Ledger) : Prop where
  records : sub.records = l.records.filter fun r => Text.toUpper r.asset = Text.toUpper asset
  get? : ∀ id, sub.get? id =
    l.records.find? fun r => Text.toUpper r.asset = Text.toUpper asset ∧ r.id = id
  forAsset_same : ∀ other, Text.toUpper asset = Text.toUpper other → sub.forAsset other = .ok sub
  forAsset_other : ∀ other, Text.toUpper asset ≠ Text.toUpper other →
    sub.forAsset other = .ok empty

theorem recordsOf_ofOrdered_recordsOf (h : Text.toUpper asset = Text.toUpper other) :
    (ofOrdered (l.recordsOf asset)).recordsOf other = l.recordsOf asset := by
  rw [recordsOf, records_ofOrdered, List.filter_eq_self]
  intro r hr
  rw [beq_iff_eq, (mem_recordsOf_iff.mp hr).2, h]

theorem recordsOf_ofOrdered_eq_nil (h : Text.toUpper asset ≠ Text.toUpper other) :
    (ofOrdered (l.recordsOf asset)).recordsOf other = [] := by
  rw [recordsOf, records_ofOrdered, List.filter_eq_nil_iff]
  intro r hr hother
  rw [beq_iff_eq, (mem_recordsOf_iff.mp hr).2] at hother
  exact h hother

theorem IsBuilt.isOfAsset (h : l.IsBuilt) (asset : String) :
    l.IsOfAsset asset (ofOrdered (l.recordsOf asset)) := by
  have hsub : (ofOrdered (l.recordsOf asset)).IsBuilt := isBuilt_of_build (h.forAsset_eq asset)
  refine ⟨?_, ?_, ?_, ?_⟩
  · rw [records_ofOrdered, recordsOf]
    congr
  · intro id
    rw [get?_ofOrdered_eq_find?, recordsOf, List.find?_filter]
    congr
    funext r
    simp
  · intro other hsame
    rw [hsub.forAsset_eq, recordsOf_ofOrdered_recordsOf hsame]
  · intro other hne
    rw [hsub.forAsset_eq, recordsOf_ofOrdered_eq_nil hne]
    rfl

/-! ## All assets -/

theorem mem_assets_iff : name ∈ l.assets ↔ ∃ r ∈ l.records, Text.toUpper r.asset = name := by
  rw [assets, List.mem_eraseDups, List.mem_map]

/-- A record belongs to the asset of its own name in upper case, and to no other. -/
theorem existsUnique_asset (hr : r ∈ l.records) : ∃! name, name ∈ l.assets ∧ r ∈ l.recordsOf name := by
  refine ⟨Text.toUpper r.asset, ⟨mem_assets_iff.mpr ⟨r, hr, rfl⟩, ?_⟩, ?_⟩
  · exact mem_recordsOf_iff.mpr ⟨hr, (Text.toUpper_toUpper r.asset).symm⟩
  · rintro name ⟨hname, hmem⟩
    obtain ⟨s, _, rfl⟩ := mem_assets_iff.mp hname
    rw [(mem_recordsOf_iff.mp hmem).2, Text.toUpper_toUpper]

/-- The ledger of the asset of some record leaves out another record. -/
def MixesAssets (l : Ledger) : Prop :=
  ∃ r ∈ l.records, ∃ sub, l.forAsset r.asset = .ok sub ∧ ∃ s ∈ l.records, s ∉ sub.records

theorem IsBuilt.mixesAssets_iff (h : l.IsBuilt) : l.MixesAssets ↔ 1 < l.assets.length := by
  rw [assets, one_lt_length_eraseDups_iff]
  constructor
  · rintro ⟨r, hr, sub, hsub, s, hs, hnot⟩
    obtain rfl : ofOrdered (l.recordsOf r.asset) = sub :=
      Except.ok.inj ((h.forAsset_eq r.asset).symm.trans hsub)
    refine ⟨_, List.mem_map.mpr ⟨s, hs, rfl⟩, _, List.mem_map.mpr ⟨r, hr, rfl⟩, ?_⟩
    intro hsame
    exact hnot (mem_recordsOf_iff.mpr ⟨hs, hsame⟩)
  · rintro ⟨_, hfirst, _, hsecond, hne⟩
    obtain ⟨s, hs, rfl⟩ := List.mem_map.mp hfirst
    obtain ⟨r, hr, rfl⟩ := List.mem_map.mp hsecond
    exact ⟨r, hr, _, h.forAsset_eq r.asset, s, hs, fun hmem => hne (mem_recordsOf_iff.mp hmem).2⟩

end Ledger

/-! ## The warning -/

theorem Reconciler.exists_build_of_refresh (r : Reconciler) {requests : HistoryRequests}
    {clock : RowClock} {l : Ledger} (h : (r.refresh requests clock).result = .ok l) :
    ∃ records, Ledger.build records = .ok l := by
  obtain ⟨sources, _, hresult⟩ := exists_of_bind_eq_ok h
  cases hledger : sources.ledger clock with
  | error fault =>
    rw [hledger] at hresult
    cases hresult
  | ok ledger =>
    rw [hledger] at hresult
    cases hresult
    obtain ⟨records, _, hbuild⟩ := exists_of_bind_eq_ok hledger
    exact ⟨records, hbuild⟩

theorem Surroundings.exists_build_of_fetchLedger {s : Surroundings} {settings : Settings} {l : Ledger}
    (h : (s.fetchLedger settings).outcome = .ok l) : ∃ records, Ledger.build records = .ok l := by
  unfold fetchLedger visit at h
  split at h
  · cases h
  · exact Reconciler.initial.exists_build_of_refresh h

namespace Run

variable {s : Surroundings} {settings : Settings} {l : Ledger}

theorem empty_ne_mixedAssetsWarning : "" ≠ mixedAssetsWarning := by decide

theorem errors_ofFailure_ne (failure : Failure) :
    (ofFailure failure).errors ≠ mixedAssetsWarning := by
  cases failure with
  | gateway e =>
    intro h
    have hfirst : "Error: ".toList.head? = some 'E' := by decide
    have hwarning : mixedAssetsWarning.toList.head? = some 'W' := by decide
    have herrors : (ofFailure (.gateway e)).errors = "Error: " ++ e.userMessage ++ "\n" := rfl
    rw [← h, herrors, String.toList_append, String.toList_append, List.append_assoc,
      List.head?_append, hfirst, Option.some_or] at hwarning
    exact absurd hwarning (by decide)
  | _ => exact empty_ne_mixedAssetsWarning

theorem errors_ofReport (report : Except Fault String) : (ofReport report).errors = "" := by
  cases report <;> rfl

theorem errors_stats (h : (s.fetchLedger settings).outcome = .ok l) (granularity : Granularity) :
    (stats s settings granularity none).errors =
      if 1 < l.assets.length then mixedAssetsWarning else "" := by
  simp [stats, ofVisit, h, restrict, during, after, errors_ofReport, assetWarning]

theorem stats_warns_iff (h : (s.fetchLedger settings).outcome = .ok l)
    (granularity : Granularity) :
    (stats s settings granularity none).errors = mixedAssetsWarning ↔ l.MixesAssets := by
  obtain ⟨records, hbuild⟩ := Surroundings.exists_build_of_fetchLedger h
  rw [errors_stats h, (Ledger.isBuilt_of_build hbuild).mixesAssets_iff]
  split
  · next hmixed => exact ⟨fun _ => hmixed, fun _ => rfl⟩
  · next hmixed =>
    exact ⟨fun hwarning => absurd hwarning empty_ne_mixedAssetsWarning, fun hnot => absurd hnot hmixed⟩

/-- Whatever else goes wrong, the warning is printed for a ledger of several assets only. -/
theorem warns_iff (s : Surroundings) (baseUrl : Option String) (granularity : Granularity) :
    (ofInvocation s ⟨.stats granularity none, baseUrl⟩).errors = mixedAssetsWarning ↔
      ∃ settings l, s.settings baseUrl = .ok settings ∧
        (s.fetchLedger settings).outcome = .ok l ∧ l.MixesAssets := by
  simp only [ofInvocation, withSettings]
  cases hsettings : s.settings baseUrl with
  | error fault =>
    exact ⟨fun h => absurd h empty_ne_mixedAssetsWarning, by rintro ⟨_, _, ⟨⟩, _⟩⟩
  | ok settings =>
    dsimp only
    cases hfetch : (s.fetchLedger settings).outcome with
    | error failure =>
      simp only [stats, ofVisit, hfetch]
      refine ⟨fun h => absurd h (errors_ofFailure_ne failure), ?_⟩
      rintro ⟨_, l, ⟨⟩, hl, _⟩
      cases hfetch.symm.trans hl
    | ok l =>
      rw [stats_warns_iff hfetch]
      refine ⟨fun hmixed => ⟨settings, l, rfl, hfetch, hmixed⟩, ?_⟩
      rintro ⟨_, fetched, ⟨⟩, hfetched, hmixed⟩
      obtain rfl : l = fetched := Except.ok.inj (hfetch.symm.trans hfetched)
      exact hmixed

end Run

namespace Ledger

variable {l : Ledger} {records : List Record}

/-- A ledger has a ledger for each asset, which holds the records of that asset in their order, and the
assets that occur share out its records. The command for statistics, when no asset is named, warns
exactly of a ledger that has a record with an asset whose ledger leaves out another record. -/
theorem assets_share_out_records (h : build records = .ok l) :
    (∀ asset, ∃ sub, l.forAsset asset = .ok sub ∧ l.IsOfAsset asset sub) ∧
    (∀ r ∈ l.records, ∃! name, (∃ s ∈ l.records, Text.toUpper s.asset = name) ∧
      ∃ sub, l.forAsset name = .ok sub ∧ r ∈ sub.records) ∧
    (∀ s baseUrl granularity,
      (Run.ofInvocation s ⟨.stats granularity none, baseUrl⟩).errors = Run.mixedAssetsWarning ↔
        ∃ settings fetched, s.settings baseUrl = .ok settings ∧
          (s.fetchLedger settings).outcome = .ok fetched ∧ fetched.MixesAssets) := by
  have hbuilt := isBuilt_of_build h
  have hmem : ∀ r name, (∃ sub, l.forAsset name = .ok sub ∧ r ∈ sub.records) ↔
      r ∈ l.recordsOf name := by
    intro r name
    rw [hbuilt.forAsset_eq]
    constructor
    · rintro ⟨_, ⟨⟩, hr⟩
      exact hr
    · exact fun hr => ⟨_, rfl, hr⟩
  refine ⟨fun asset => ⟨_, hbuilt.forAsset_eq asset, hbuilt.isOfAsset asset⟩, ?_, Run.warns_iff⟩
  intro r hr
  simp only [hmem, ← mem_assets_iff]
  exact existsUnique_asset hr

/-- The asset of one record is written with a letter that becomes two letters in upper case, so it is
the asset of the last record as well. -/
theorem assets_share_out_three_records :
    let time : Moment := ⟨0, some 0, by decide⟩
    let records := [sampleRecord "a" .deposit "Maß" time, sampleRecord "b" .deposit "btc" time,
      sampleRecord "a" .payment "mass" time]
    ∃ l sub, build records = .ok l ∧ l.forAsset "MASS" = .ok sub ∧ sub.ids = ["a", "a"] ∧
      (sub.get? "a").map (·.kind) = some .deposit ∧ sub.forAsset "maß" = .ok sub ∧
      sub.forAsset "BTC" = .ok empty := by
  intro time records
  have hbuild : build records = .ok (ofOrdered records) := build_of_pairwise (by decide) (by decide)
  have hmass : ∀ asset ∈ ["Maß", "mass", "MASS", "maß"], Text.toUpper asset = "MASS" := by
    decide +kernel
  have hbtc : ∀ asset ∈ ["btc", "BTC"], Text.toUpper asset = "BTC" := by decide +kernel
  obtain ⟨hassets, _, _⟩ := assets_share_out_records hbuild
  obtain ⟨sub, hsub, hof⟩ := hassets "MASS"
  refine ⟨_, sub, hbuild, hsub, ?_, ?_, hof.forAsset_same _ ?_, hof.forAsset_other _ ?_⟩
  · rw [ids, hof.records]
    simp [records_ofOrdered, records, sampleRecord, hmass, hbtc]
  · rw [hof.get?]
    simp [records_ofOrdered, records, sampleRecord, hmass]
  · rw [hmass _ (by decide), hmass _ (by decide)]
  · rw [hmass _ (by decide), hbtc _ (by decide)]
    decide

end Ledger

end GatewayLedger
