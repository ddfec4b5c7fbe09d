import Mathlib.Data.List.Induction
import Mathlib.Data.List.Infix
import RowFilter.Proofs.Memory.Ledger

/-!
# Counting without a limit

Without a limit nothing is refused, and the counter of a budget stops at the greatest byte count. A
sum that goes beyond it is cut there, but what is dropped is taken away as a whole. So fewer bytes
may be in use than are held, even when the bytes that are held could be counted
(`unlimited_undercounts`). Main result: `unlimited_exact_iff`. The count is exact at all times of a
run just if all that is held together can be counted at all times, and it never shows more than is
held.
-/

namespace RowFilter

/-- Without a limit, what is reserved is added, up to the greatest byte count. -/
theorem Budget.reserve_of_unlimited (used bytes : Nat) :
    (counted 0 used).reserve bytes = .ok (counted 0 (min (used + bytes) maxBytes)) := by
  rw [reserve]
  exact if_neg fun hrefused => Nat.lt_irrefl 0 hrefused.2.1

namespace Ledger

/-- A reservation is made or dropped. -/
def Operation.OfReservations : Operation → Prop
  | hold _ | drop _ => True
  | reserve _ | release _ | allocate _ _ _ | operate _ _ => False

variable {l l' : Ledger} {op : Operation}

/-- No more is in use than is held, and no more than can be counted. -/
structure Undercounted (l : Ledger) : Prop where
  budget_eq : l.budget = .counted 0 l.budget.used
  used_le_held : l.budget.used ≤ l.held
  used_le : l.budget.used ≤ maxBytes

/-- No reservation or drop makes the count exceed what is held. -/
theorem Step.undercounted (step : Step l op l') (reservations : op.OfReservations)
    (h : l.Undercounted) : l'.Undercounted := by
  have hheld := h.used_le_held
  have hmax := h.used_le
  cases step with
  | same => exact h
  | reserved | released | allocated | undone | operated => exact reservations.elim
  | @made bytes after granted =>
    rw [h.budget_eq, Budget.reserve_of_unlimited] at granted
    cases granted
    refine ⟨rfl, ?_, Nat.min_le_right ..⟩
    rw [held_concat]
    show min (l.budget.used + bytes) maxBytes ≤ l.held + bytes
    omega
  | @dropped i holder there =>
    have hsum := held_eraseIdx (l.budget.release holder.bytes) there
    rw [h.budget_eq] at hsum ⊢
    refine ⟨rfl, ?_, ?_⟩
    · show l.budget.used - holder.bytes ≤ _
      omega
    · show l.budget.used - holder.bytes ≤ maxBytes
      omega

/-- As long as what is held can be counted, it is. -/
theorem Step.used_eq_held (step : Step l op l') (reservations : op.OfReservations)
    (h : l.Undercounted) (exact : l.budget.used = l.held) (counted : l'.held ≤ maxBytes) :
    l'.budget.used = l'.held := by
  cases step with
  | same => exact exact
  | reserved | released | allocated | undone | operated => exact reservations.elim
  | @made bytes after granted =>
    rw [held_concat] at counted ⊢
    rw [h.budget_eq, Budget.reserve_of_unlimited, exact] at granted
    cases granted
    exact Nat.min_eq_left counted
  | @dropped i holder there =>
    have hsum := held_eraseIdx (l.budget.release holder.bytes) there
    rw [h.budget_eq, exact] at hsum ⊢
    show l.held - holder.bytes = _
    omega

variable {ops : List Operation}

/-- The count never exceeds what is held. -/
theorem undercounted_run (reservations : ∀ op ∈ ops, op.OfReservations) :
    ((opened .unlimited).run ops).Undercounted :=
  run_induct (P := Undercounted)
    (fun _ _ op hop h step => step.undercounted (reservations op hop) h)
    ⟨rfl, Nat.le_refl 0, Nat.zero_le _⟩

/-- If all that is held can be counted up to the end of a run, the count is exact there. -/
theorem used_run_eq_held (reservations : ∀ op ∈ ops, op.OfReservations)
    (counted : ∀ first, first <+: ops → ((opened .unlimited).run first).held ≤ maxBytes) :
    ((opened .unlimited).run ops).budget.used = ((opened .unlimited).run ops).held := by
  induction ops using List.reverseRecOn with
  | nil => rfl
  | append_singleton first op ih =>
    have hfirst : ∀ op' ∈ first, op'.OfReservations := fun op' hop' =>
      reservations op' (List.mem_append_left _ hop')
    have hop : op.OfReservations :=
      reservations op (List.mem_append_right _ (List.mem_singleton_self op))
    have hexact := ih hfirst fun init hinit => counted init (hinit.trans (List.prefix_append ..))
    have hcounted := counted _ (List.prefix_refl _)
    rw [run_concat] at hcounted ⊢
    exact (step_perform _ op).used_eq_held hop (undercounted_run hfirst) hexact hcounted

/-- **Counting without a limit**: of any reservations that are made and dropped in any order, the
bytes in use are at all times those that are held, just if these can be counted at all times. Then
no reservation is greater than what is in use. In any case no more is in use than is held. -/
theorem unlimited_exact_iff (reservations : ∀ op ∈ ops, op.OfReservations) :
    ((∀ first, first <+: ops →
        ((opened .unlimited).run first).budget.used = ((opened .unlimited).run first).held) ↔
      ∀ first, first <+: ops → ((opened .unlimited).run first).held ≤ maxBytes) ∧
    (((opened .unlimited).run ops).budget.used = ((opened .unlimited).run ops).held →
      ∀ h ∈ ((opened .unlimited).run ops).holders,
        h.bytes ≤ ((opened .unlimited).run ops).budget.used) ∧
    ((opened .unlimited).run ops).budget.used ≤ ((opened .unlimited).run ops).held := by
  have hfirsts : ∀ first, first <+: ops → ∀ op ∈ first, op.OfReservations :=
    fun first hfirst op hop => reservations op (hfirst.subset hop)
  refine ⟨⟨fun hexact first hfirst => ?_, fun hcounted first hfirst => ?_⟩, fun hexact h hh => ?_,
    (undercounted_run reservations).used_le_held⟩
  · rw [← hexact first hfirst]
    exact (undercounted_run (hfirsts first hfirst)).used_le
  · exact used_run_eq_held (hfirsts first hfirst) fun init hinit =>
      hcounted init (hinit.trans hfirst)
  · rw [hexact]
    exact Holder.bytes_le_total hh

end Ledger

/-- Two reservations, of which the first is dropped. -/
def Sample.reservations : List Ledger.Operation := [.hold 5, .hold 7, .drop 0]

namespace Ledger

/-- Twelve bytes can be counted, so seven are in use when five of them are dropped. -/
theorem sample_unlimited :
    ((opened .unlimited).run Sample.reservations).budget.used = 7 ∧
      ((opened .unlimited).run Sample.reservations).held = 7 ∧
      ∀ first, first <+: Sample.reservations →
        ((opened .unlimited).run first).budget.used = ((opened .unlimited).run first).held := by
  have reservations : ∀ op ∈ Sample.reservations, op.OfReservations := by
    simp [Sample.reservations, Operation.OfReservations]
  have hcounted : ∀ first ∈ Sample.reservations.inits,
      ((opened .unlimited).run first).held ≤ maxBytes := by
    decide
  have hexact := (unlimited_exact_iff reservations).1.mpr fun first hfirst =>
    hcounted first ((List.mem_inits _ _).mpr hfirst)
  have hheld : ((opened .unlimited).run Sample.reservations).held = 7 := rfl
  exact ⟨(hexact _ (List.prefix_refl _)).trans hheld, hheld, hexact⟩

/-- After a reservation of all bytes that can be counted, another one is not seen any more once the
first is dropped. -/
theorem unlimited_undercounts :
    ((opened .unlimited).run [.hold maxBytes, .hold 10, .drop 0]).budget.used = 0 ∧
      ((opened .unlimited).run [.hold maxBytes, .hold 10, .drop 0]).held = 10 := by
  decide

end Ledger

end RowFilter
