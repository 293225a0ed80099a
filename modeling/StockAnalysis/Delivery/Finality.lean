import StockAnalysis.Delivery.Resends

/-!
# Decisions are kept, and end

No transaction deletes a decision or exchanges the envelope it was prepared with. `Delivered` and
`ManualResolvedRejected` are ends: a decision that is in one of them is not written any more.
-/

namespace StockAnalysis.Delivery

variable {host : Host} {catalog : List PolicyRow} {row : Decision} {world : World}
  {decisions later : Table Decision.identity}

/-- What a decision may become. -/
structure Decision.Becomes (row later : Decision) : Prop where
  identity : later.identity = row.identity
  envelope : later.envelope = row.envelope
  final : row.state.final = true → later = row

theorem Decision.Becomes.refl (row : Decision) : row.Becomes row :=
  ⟨rfl, rfl, fun _ => rfl⟩

/-- Every decision of the table is still there. -/
def Retains (decisions later : Table Decision.identity) : Prop :=
  ∀ row ∈ decisions.rows, ∃ now ∈ later.rows, row.Becomes now

theorem Rewrites.retains (rewrites : Rewrites host decisions later) : Retains decisions later := by
  intro row listed
  cases rewrites with
  | kept => exact ⟨row, listed, .refl row⟩
  | inserted new _ _ inserted =>
    exact ⟨row, (Table.mem_of_insert inserted).mpr (.inl listed), .refl row⟩
  | moved old new member identity envelope unsettled =>
    by_cases same : row.identity = old.identity
    · obtain rfl := Table.eq_of_key listed member same
      exact ⟨new, Table.mem_set_self member identity, identity, envelope,
        fun final => by simp [unsettled] at final⟩
    · exact ⟨row, (Table.mem_set member identity).mpr (.inl ⟨listed, identity ▸ same⟩), .refl row⟩

/-- In every run a decision is kept with its envelope, and a final one as it is.

Proof: by induction on the actions; one action rewrites at most one decision, which is not final. -/
theorem decisions_kept (actions : List Action) (member : row ∈ world.store.decisions.rows) :
    ∃ later ∈ (world.run host catalog actions).store.decisions.rows, row.Becomes later := by
  induction actions generalizing world row with
  | nil => exact ⟨row, member, .refl row⟩
  | cons action actions ih =>
    obtain ⟨middle, isMiddle, first⟩ := (step_changes action).rewrites.retains row member
    obtain ⟨later, isLater, second⟩ := ih isMiddle
    refine ⟨later, isLater, second.identity.trans first.identity,
      second.envelope.trans first.envelope, fun final => ?_⟩
    have same := first.final final
    rw [second.final (same ▸ final), same]

/-- The retried decision, delivered. -/
def sampleDelivered : World :=
  sampleRetry.run sampleHost compiledPolicyCatalog
    [.reconcile .open "news-1" .acceptedAuditPending 7000000000]

theorem delivered_kept : ∃ row ∈ sampleDelivered.store.decisions.rows, row.state = .delivered ∧
    row ∈ (sampleDelivered.run sampleHost compiledPolicyCatalog
      [.authorize .open "news-1"]).store.decisions.rows := by
  have found : sampleDelivered.store.decisions.rows.any (·.state = .delivered) = true := by
    decide +kernel
  obtain ⟨row, member, state⟩ := List.any_eq_true.mp found
  have delivered : row.state = .delivered := of_decide_eq_true state
  obtain ⟨later, isLater, becomes⟩ := decisions_kept [.authorize .open "news-1"] member
  exact ⟨row, member, delivered, becomes.final (delivered ▸ rfl) ▸ isLater⟩

end StockAnalysis.Delivery
