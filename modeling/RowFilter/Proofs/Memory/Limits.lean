import RowFilter.Config
import RowFilter.Proofs.Memory.Ledger

/-!
# Limits are kept

With a limit that is a byte count but the greatest, the counter of a budget never reaches the end of
its range, so that sums and differences are exact. Main result: `limited_run`. Whatever happens to
such a ledger, no more than the limit is in use, a request is refused just if it would go beyond the
limit, and what is refused changes nothing. If all bytes are held by someone, the bytes in use are
those that are held. `configured_run` is about limits from a configuration, where the limit `0` is
not enforced.
-/

namespace RowFilter

namespace Budget

/-- The budget counts with a limit, and no more than that is in use. -/
def Within (limit : Nat) (b : Budget) : Prop := ∃ used ≤ limit, b = counted limit used

/-- A budget begins within its limit. -/
theorem within_limited (limit : Nat) : (limited limit).Within limit := ⟨0, Nat.zero_le _, rfl⟩

/-- Within the limit no more is used than it allows. -/
theorem Within.used_le {limit : Nat} {b : Budget} (h : b.Within limit) : b.used ≤ limit := by
  obtain ⟨used, hle, rfl⟩ := h
  exact hle

theorem Within.limit_eq {limit : Nat} {b : Budget} (h : b.Within limit) : b.limit = limit := by
  obtain ⟨used, -, rfl⟩ := h
  rfl

/-- What is granted fits, whether or not the limit leaves room for greater sums. -/
theorem Within.reserve {limit bytes : Nat} {b after : Budget} (h : b.Within limit)
    (pos : 0 < limit) (granted : b.reserve bytes = .ok after) : after.Within limit := by
  obtain ⟨used, hle, rfl⟩ := h
  rw [Budget.reserve] at granted
  by_cases hrefused : 0 < bytes ∧ 0 < limit ∧ limit < min (used + bytes) maxBytes
  · simp only [hrefused, and_self, if_true] at granted
    cases granted
  · simp only [hrefused, if_false] at granted
    cases granted
    refine ⟨_, ?_, rfl⟩
    -- nothing at all is granted without a look at the limit
    rcases Nat.eq_zero_or_pos bytes with rfl | hpos
    · omega
    · omega

/-- Giving back bytes stays within the limit. -/
theorem Within.release {limit : Nat} {b : Budget} (h : b.Within limit) (bytes : Nat) :
    (b.release bytes).Within limit := by
  obtain ⟨used, hle, rfl⟩ := h
  exact ⟨used - bytes, by omega, rfl⟩

/-- Below the greatest byte count a limit is compared with the exact sum. -/
theorem Within.reserve_eq {limit : Nat} {b : Budget} (h : b.Within limit) (pos : 0 < limit)
    (below : limit < maxBytes) (bytes : Nat) :
    b.reserve bytes =
      if limit < b.used + bytes then .error (.memoryRefused (.limit b.used bytes limit))
      else .ok (.counted limit (b.used + bytes)) := by
  obtain ⟨used, hle, rfl⟩ := h
  rw [Budget.reserve, Budget.used]
  by_cases hbeyond : limit < used + bytes
  · have hrefused : 0 < bytes ∧ 0 < limit ∧ limit < min (used + bytes) maxBytes := by omega
    rw [if_pos hrefused, if_pos hbeyond]
  · have hgranted : ¬(0 < bytes ∧ 0 < limit ∧ limit < min (used + bytes) maxBytes) := by omega
    have hexact : min (used + bytes) maxBytes = used + bytes := by omega
    rw [if_neg hgranted, if_neg hbeyond, hexact]

/-- Bytes are refused just if they would exceed the limit. -/
theorem Within.reserve_eq_error_iff {limit : Nat} {b : Budget} (h : b.Within limit)
    (pos : 0 < limit) (below : limit < maxBytes) {bytes : Nat} {e : Error} :
    b.reserve bytes = .error e ↔
      limit < b.used + bytes ∧ e = .memoryRefused (.limit b.used bytes limit) := by
  rw [h.reserve_eq pos below]
  by_cases hbeyond : limit < b.used + bytes
  · simp only [hbeyond, if_true, Except.error.injEq, true_and, eq_comm]
  · simp only [hbeyond, if_false, reduceCtorEq, false_and]

/-- Bytes are granted just if they do not exceed the limit, and then they are added. -/
theorem Within.reserve_eq_ok_iff {limit : Nat} {b : Budget} (h : b.Within limit)
    (pos : 0 < limit) (below : limit < maxBytes) {bytes : Nat} {after : Budget} :
    b.reserve bytes = .ok after ↔
      b.used + bytes ≤ limit ∧ after = .counted limit (b.used + bytes) := by
  rw [h.reserve_eq pos below]
  by_cases hbeyond : limit < b.used + bytes
  · simp only [hbeyond, if_true, reduceCtorEq, Nat.not_le.mpr hbeyond, false_and]
  · simp only [hbeyond, if_false, Except.ok.injEq, Nat.le_of_not_lt hbeyond, true_and, eq_comm]

/-- What is available is what the limit leaves. -/
theorem Within.available_eq {limit : Nat} {b : Budget} (h : b.Within limit) (pos : 0 < limit) :
    b.available = limit - b.used := by
  rw [available, h.limit_eq, if_neg (Nat.ne_of_gt pos)]

end Budget

namespace Ledger

variable {limit : Nat} {l l' : Ledger} {op : Operation}

/-! ## What every operation keeps -/

/-- No operation goes beyond the limit. -/
theorem Step.within (step : Step l op l') (pos : 0 < limit) (h : l.budget.Within limit) :
    l'.budget.Within limit := by
  cases step with
  | same => exact h
  | reserved granted => exact h.reserve pos granted
  | released bytes => exact h.release bytes
  | made granted => exact h.reserve pos granted
  | allocated granted => exact h.reserve pos granted
  | undone granted => exact (h.reserve pos granted).release _
  | operated => exact h
  | dropped _ => exact h.release _

/-- Every run stays within the limit. -/
theorem within_run (pos : 0 < limit) (ops : List Operation) :
    ((opened (.limited limit)).run ops).budget.Within limit :=
  run_induct (P := fun l => l.budget.Within limit) (fun _ _ _ _ h step => step.within pos h)
    (Budget.within_limited limit)

/-- The bytes in use are those that are held, and they are within the limit. -/
structure Exact (limit : Nat) (l : Ledger) : Prop where
  budget_eq : l.budget = .counted limit l.held
  held_le : l.held ≤ limit

theorem Exact.within (h : l.Exact limit) : l.budget.Within limit :=
  ⟨l.held, h.held_le, h.budget_eq⟩

/-- What is in use is what is held. -/
theorem Exact.used_eq (h : l.Exact limit) : l.budget.used = l.held := by
  rw [h.budget_eq, Budget.used]

/-- A holder that is granted its bytes is counted. -/
theorem Exact.concat {holder : Holder} {after : Budget} (h : l.Exact limit) (pos : 0 < limit)
    (below : limit < maxBytes) (granted : l.budget.reserve holder.bytes = .ok after) :
    Exact limit ⟨after, l.holders ++ [holder]⟩ := by
  rw [h.within.reserve_eq_ok_iff pos below, h.used_eq] at granted
  obtain ⟨hle, rfl⟩ := granted
  exact ⟨by rw [held_concat], by rw [held_concat]; exact hle⟩

/-- Operations that go by holders keep the count exact. -/
theorem Step.exact (step : Step l op l') (pos : 0 < limit) (below : limit < maxBytes)
    (byHolders : op.ByHolders) (h : l.Exact limit) : l'.Exact limit := by
  cases step with
  | same => exact h
  | reserved _ => exact byHolders.elim
  | released _ => exact byHolders.elim
  | made granted => exact h.concat pos below granted
  | allocated granted =>
    rw [← Holder.bytes_empty] at granted
    exact h.concat pos below granted
  | undone granted =>
    -- what was added is taken away again, because the sum was exact
    rw [h.within.reserve_eq_ok_iff pos below, h.used_eq] at granted
    obtain ⟨-, rfl⟩ := granted
    refine ⟨?_, h.held_le⟩
    rw [Budget.release, Nat.add_sub_cancel]
    rfl
  | operated =>
    exact ⟨by rw [held_modify]; exact h.budget_eq, by rw [held_modify]; exact h.held_le⟩
  | @dropped i holder there =>
    have hheld := held_eraseIdx (l.budget.release holder.bytes) there
    refine ⟨?_, Nat.le_trans (Nat.le_of_add_right_le (Nat.le_of_eq hheld)) h.held_le⟩
    rw [h.budget_eq, Budget.release, ← hheld, Nat.add_sub_cancel]
    rfl

/-- As long as only holders reserve and release, the count is exact. -/
theorem exact_run (pos : 0 < limit) (below : limit < maxBytes) {ops : List Operation}
    (byHolders : ∀ op ∈ ops, op.ByHolders) : ((opened (.limited limit)).run ops).Exact limit :=
  run_induct (P := Exact limit)
    (fun _ _ op hop h step => step.exact pos below (byHolders op hop) h) ⟨rfl, Nat.zero_le _⟩

/-! ## What holds of a limited ledger at any time -/

/-- What holds of a ledger with a limit at any time. -/
structure Limited (limit : Nat) (l : Ledger) : Prop where
  used_le : l.budget.used ≤ limit
  available_eq : l.budget.available = limit - l.budget.used
  /-- A request is refused for the limit just if it would go beyond it. -/
  refused_iff : ∀ op bytes, Operation.request op = some bytes →
    ((op.perform l).1 = .error (.memoryRefused (.limit l.budget.used bytes limit)) ↔
      limit < l.budget.used + bytes)
  /-- If it would not, it can only fail for lack of a buffer. -/
  granted : ∀ op bytes, Operation.request op = some bytes → l.budget.used + bytes ≤ limit →
    (op.perform l).1 = .ok () ∨
      ∃ grants type capacity, op = .allocate grants type capacity ∧ grants bytes = false
  /-- What succeeds is counted. -/
  counted : ∀ op bytes, Operation.request op = some bytes → (op.perform l).1 = .ok () →
    (op.perform l).2.budget = .counted limit (l.budget.used + bytes)
  /-- What is given back is no longer counted. -/
  released : ∀ bytes, ((Operation.release bytes).perform l).2.budget =
    .counted limit (l.budget.used - bytes)
  /-- What fails changes nothing, and with any request it is for lack of memory. -/
  failed : ∀ op e, (Operation.perform op l).1 = .error e → (op.perform l).2 = l ∧
    e.kind = if op.request = none then .capacityTooLarge else .resourceExhausted

/-- All that is promised of a limit follows from being within it. -/
theorem limited_of_within (h : l.budget.Within limit) (pos : 0 < limit)
    (below : limit < maxBytes) : l.Limited limit where
  used_le := h.used_le
  available_eq := h.available_eq pos
  refused_iff op bytes hrequest := by
    rcases perform_of_request (l := l) hrequest with
      ⟨e, hrefused, hperform⟩ | ⟨after, hgranted, ⟨holders, hperform⟩ | ⟨_, _, _, _, _, hperform⟩⟩
    · rw [h.reserve_eq_error_iff pos below] at hrefused
      rw [hperform, hrefused.2]
      exact ⟨fun _ => hrefused.1, fun _ => rfl⟩
    · rw [h.reserve_eq_ok_iff pos below] at hgranted
      rw [hperform]
      simp [hgranted.1]
    · rw [h.reserve_eq_ok_iff pos below] at hgranted
      rw [hperform]
      simp [hgranted.1]
  granted op bytes hrequest hroom := by
    rcases perform_of_request (l := l) hrequest with
      ⟨e, hrefused, -⟩ | ⟨after, -, ⟨holders, hperform⟩ | ⟨grants, type, capacity, hop, hno, -⟩⟩
    · rw [h.reserve_eq_error_iff pos below] at hrefused
      exact absurd hrefused.1 (Nat.not_lt.mpr hroom)
    · exact Or.inl (by rw [hperform])
    · exact Or.inr ⟨grants, type, capacity, hop, hno⟩
  counted op bytes hrequest hok := by
    rcases perform_of_request (l := l) hrequest with
      ⟨e, -, hperform⟩ | ⟨after, hgranted, ⟨holders, hperform⟩ | ⟨_, _, _, _, _, hperform⟩⟩
    · rw [hperform] at hok
      cases hok
    · rw [h.reserve_eq_ok_iff pos below] at hgranted
      rw [hperform, hgranted.2]
    · rw [hperform] at hok
      cases hok
  released bytes := by
    obtain ⟨used, -, hbudget⟩ := h
    rw [Operation.perform, hbudget]
    rfl
  failed op e he := by
    cases hrequest : op.request with
    | none => exact perform_of_request_eq_none hrequest he
    | some bytes =>
      rcases perform_of_request (l := l) hrequest with
        ⟨e', hrefused, hperform⟩ |
          ⟨after, hgranted, ⟨holders, hperform⟩ | ⟨_, _, _, _, _, hperform⟩⟩
      · rw [h.reserve_eq_error_iff pos below] at hrefused
        rw [hperform] at he ⊢
        cases he
        exact ⟨rfl, by rw [hrefused.2]; rfl⟩
      · rw [hperform] at he
        cases he
      · -- the bytes were counted and given back
        rw [hperform] at he ⊢
        cases he
        rw [h.reserve_eq_ok_iff pos below] at hgranted
        obtain ⟨used, -, hbudget⟩ := h
        refine ⟨?_, rfl⟩
        rw [hgranted.2, Budget.release, Nat.add_sub_cancel, hbudget, Budget.used, ← hbudget]

/-- **Limits are kept**: with a limit below the greatest byte count, whatever is reserved, given
back, allocated and dropped, there is never more in use than the limit, requests are refused just
if they would go beyond it, and failures change nothing. If nothing was reserved or given back but
by holders, the bytes in use are those that the holders hold together. -/
theorem limited_run (pos : 0 < limit) (below : limit < maxBytes) (ops : List Operation) :
    ((opened (.limited limit)).run ops).Limited limit ∧
      ((∀ op ∈ ops, op.ByHolders) →
        ((opened (.limited limit)).run ops).budget.used =
          ((opened (.limited limit)).run ops).held) :=
  ⟨limited_of_within (within_run pos ops) pos below,
    fun byHolders => (exact_run pos below byHolders).used_eq⟩

end Ledger

/-- A reservation, one that is refused, a selection that is used, and the reservation is dropped. -/
def Sample.operations : List Ledger.Operation :=
  [.hold 6, .hold 5, .allocate Selection.addressable .uint16 2, .operate 1 (.append 7), .drop 0]

namespace Ledger

/-- After that the four bytes of the selection are in use, and of ten bytes six more can be had, but
not seven. -/
theorem sample_limited :
    ((opened (.limited 10)).run Sample.operations).budget.used = 4 ∧
      ((opened (.limited 10)).run Sample.operations).held = 4 ∧
      ((Operation.hold 7).perform ((opened (.limited 10)).run Sample.operations)).1 =
        .error (.memoryRefused (.limit 4 7 10)) ∧
      ((opened (.limited 10)).run Sample.operations).Limited 10 := by
  have byHolders : ∀ op ∈ Sample.operations, op.ByHolders := by
    simp [Sample.operations, Operation.ByHolders]
  have below : 10 < maxBytes := by decide
  obtain ⟨hlimited, hexact⟩ := limited_run (Nat.succ_pos 9) below Sample.operations
  have hheld : ((opened (.limited 10)).run Sample.operations).held = 4 := rfl
  have hused := (hexact byHolders).trans hheld
  refine ⟨hused, hheld, ?_, hlimited⟩
  have hrefused := (hlimited.refused_iff (.hold 7) 7 rfl).mpr
  rw [hused] at hrefused
  exact hrefused (by decide)

/-! ## Limits from a configuration -/

/-- Without a limit in the configuration there is none. -/
theorem budget_of_none {c : MemoryConfig} (h : c.limit = none) : c.budget = .unlimited := by
  rw [MemoryConfig.budget, h]
  rfl

/-- **Limits from a configuration**: a limit is kept just if it is not `0`, because the budget takes
`0` to mean that there is none. Without a limit nothing is ever refused. -/
theorem configured_run (c : MemoryConfig) :
    (∀ n, c.limit = some n →
      ((∀ ops, ((opened c.budget).run ops).budget.used ≤ n) ↔ n ≠ 0)) ∧
    (c.limit = none → ∀ ops bytes,
      ((Operation.reserve bytes).perform ((opened c.budget).run ops)).1 = .ok () ∧
        ((Operation.hold bytes).perform ((opened c.budget).run ops)).1 = .ok ()) := by
  constructor
  · intro n hn
    have hbudget : c.budget = .limited n := by rw [MemoryConfig.budget, hn]; rfl
    rw [hbudget]
    constructor
    · rintro hkept rfl
      -- a single byte is too much
      exact absurd (hkept [.reserve 1]) (by decide)
    · intro hn ops
      exact (within_run (Nat.pos_of_ne_zero hn) ops).used_le
  · intro hnone ops bytes
    have hlimit : ((opened c.budget).run ops).budget.limit = 0 := by
      rw [limit_run, budget_of_none hnone]
      rfl
    obtain ⟨after, hgranted⟩ := Budget.exists_reserve_of_limit_eq_zero hlimit bytes
    exact ⟨by rw [Operation.perform, hgranted],
      by rw [Operation.perform, Reservation.make, hgranted]; rfl⟩

/-- A configuration with the limit `0` lets any number of bytes be reserved. -/
theorem zero_limit_exceeded :
    ((opened (MemoryConfig.budget ⟨some 0⟩)).run [.reserve 16]).budget.used = 16 := rfl

end Ledger

end RowFilter
