import RowFilter.Proofs.Selection.Allocation

/-!
# The holders of a budget

A `Ledger` is a budget together with the reservations and the selections that hold bytes of it, and
`Operation` is what can happen to it: bytes are reserved and given back directly, holders are made
and dropped in any order, and selections are used in between. `Step` says what an operation comes
to, with every failure, and `step_perform` that nothing else can happen. Main result: `run_induct`.
What every step keeps, a run keeps.
-/

namespace RowFilter

namespace Budget

/-- Reserving does not change the limit. -/
theorem limit_of_reserve {b after : Budget} {bytes : Nat} (granted : b.reserve bytes = .ok after) :
    after.limit = b.limit := by
  cases b with
  | uncounted =>
    cases granted
    rfl
  | counted limit used =>
    rw [reserve] at granted
    split at granted
    next => cases granted
    next =>
      cases granted
      rfl

@[simp] theorem limit_release (b : Budget) (bytes : Nat) : (b.release bytes).limit = b.limit := by
  cases b with
  | uncounted => rfl
  | counted limit used => rfl

/-- Without a limit nothing is refused. -/
theorem exists_reserve_of_limit_eq_zero {b : Budget} (h : b.limit = 0) (bytes : Nat) :
    ∃ after, b.reserve bytes = .ok after := by
  cases b with
  | uncounted => exact ⟨.uncounted, rfl⟩
  | counted limit used =>
    obtain rfl : limit = 0 := h
    exact ⟨_, if_neg fun hrefused => Nat.lt_irrefl 0 hrefused.2.1⟩

end Budget

/-- What holds bytes of a budget until it is dropped. -/
inductive Holder
  | reservation (r : Reservation)
  | selection (s : Selection)

namespace Holder

/-- What is given back when the holder is dropped. -/
def reserved : Holder → Reservation
  | reservation r => r
  | selection s => s.reservation

def bytes (h : Holder) : Nat := h.reserved.bytes

theorem bytes_selection (s : Selection) : (selection s).bytes = s.bytes := rfl

/-- The holder after an operation on the selection that it is, if it is one. -/
def operate (op : Selection.Operation) : Holder → Holder
  | reservation r => reservation r
  | selection s => selection (op.perform s)

theorem bytes_empty (type : IndexType) (capacity : Nat) :
    (selection (.empty type capacity)).bytes = capacity * type.byteWidth :=
  Selection.bytes_empty type capacity

/-- A selection holds its bytes whatever is done to its rows. -/
@[simp] theorem bytes_operate (op : Selection.Operation) (h : Holder) :
    (h.operate op).bytes = h.bytes := by
  cases h with
  | reservation r => rfl
  | selection s =>
    rw [operate, bytes_selection, bytes_selection, Selection.bytes, Selection.bytes,
      Selection.capacity_perform, Selection.type_perform]

/-- The bytes of several holders together. -/
def total : List Holder → Nat
  | [] => 0
  | h :: hs => h.bytes + total hs

theorem total_concat (hs : List Holder) (h : Holder) : total (hs ++ [h]) = total hs + h.bytes := by
  induction hs with
  | nil => exact (Nat.zero_add _).symm
  | cons h' hs ih => rw [List.cons_append, total, total, ih, Nat.add_assoc]

/-- Operating on what is held does not change its size. -/
theorem total_modify (op : Selection.Operation) (i : Nat) (hs : List Holder) :
    total (hs.modify i (operate op)) = total hs := by
  induction hs generalizing i with
  | nil => rw [List.modify_nil]
  | cons h hs ih =>
    cases i with
    | zero => rw [List.modify_zero_cons, total, total, bytes_operate]
    | succ i => rw [List.modify_succ_cons, total, total, ih]

/-- One holder and all others make up the total. -/
theorem total_eraseIdx {hs : List Holder} {i : Nat} {h : Holder} (hi : hs[i]? = some h) :
    total (hs.eraseIdx i) + h.bytes = total hs := by
  induction hs generalizing i with
  | nil => cases hi
  | cons h' hs ih =>
    cases i with
    | zero =>
      cases hi
      exact Nat.add_comm _ _
    | succ i =>
      rw [List.eraseIdx_cons_succ, total, total, Nat.add_assoc, ih hi]

/-- No holder has more than all together. -/
theorem bytes_le_total {hs : List Holder} {h : Holder} (hmem : h ∈ hs) : h.bytes ≤ total hs := by
  obtain ⟨i, hi⟩ := List.getElem?_of_mem hmem
  have hsum := total_eraseIdx hi
  omega

end Holder

structure Ledger where
  budget : Budget
  /-- In the order in which they were made. -/
  holders : List Holder

namespace Ledger

/-- A budget that nobody holds anything of. -/
def opened (b : Budget) : Ledger := ⟨b, []⟩

/-- The bytes that the holders hold together. -/
def held (l : Ledger) : Nat := Holder.total l.holders

@[simp] theorem held_opened (b : Budget) : (opened b).held = 0 := rfl

/-- A new holder adds its bytes. -/
theorem held_concat (l : Ledger) (b : Budget) (h : Holder) :
    held ⟨b, l.holders ++ [h]⟩ = l.held + h.bytes := Holder.total_concat l.holders h

/-- Operating on a selection does not change what is held. -/
theorem held_modify (l : Ledger) (b : Budget) (i : Nat) (op : Selection.Operation) :
    held ⟨b, l.holders.modify i (Holder.operate op)⟩ = l.held := Holder.total_modify op i l.holders

/-- A holder that is dropped takes its bytes away. -/
theorem held_eraseIdx {l : Ledger} {i : Nat} {h : Holder} (b : Budget)
    (there : l.holders[i]? = some h) :
    held ⟨b, l.holders.eraseIdx i⟩ + h.bytes = l.held := Holder.total_eraseIdx there

/-- What can happen to a ledger. -/
inductive Operation
  /-- Bytes are reserved without a holder. -/
  | reserve (bytes : Nat)
  /-- Bytes are given back, no matter whether that many were reserved. -/
  | release (bytes : Nat)
  /-- A reservation is made. -/
  | hold (bytes : Nat)
  /-- A selection is allocated, where `grants` says which sizes of buffer can be had. -/
  | allocate (grants : Nat → Bool) (type : IndexType) (capacity : Nat)
  /-- The selection that is a certain holder is used. -/
  | operate (i : Nat) (op : Selection.Operation)
  /-- A holder is dropped. -/
  | drop (i : Nat)

/-- The operation goes by holders, so that what is given back was reserved before. -/
def Operation.ByHolders : Operation → Prop
  | reserve _ | release _ => False
  | hold _ | allocate _ _ _ | operate _ _ | drop _ => True

/-- What an operation reports, and the ledger after it. -/
def Operation.perform (op : Operation) (l : Ledger) : Except Error Unit × Ledger :=
  match op with
  | reserve bytes =>
    match l.budget.reserve bytes with
    | .error e => (.error e, l)
    | .ok after => (.ok (), ⟨after, l.holders⟩)
  | release bytes => (.ok (), ⟨l.budget.release bytes, l.holders⟩)
  | hold bytes =>
    match Reservation.make l.budget bytes with
    | .error e => (.error e, l)
    | .ok (r, after) => (.ok (), ⟨after, l.holders ++ [.reservation r]⟩)
  | allocate grants type capacity =>
    match Selection.allocate grants l.budget type capacity with
    | (.error e, after) => (.error e, ⟨after, l.holders⟩)
    | (.ok s, after) => (.ok (), ⟨after, l.holders ++ [.selection s]⟩)
  | operate i op => (.ok (), ⟨l.budget, l.holders.modify i (Holder.operate op)⟩)
  | drop i =>
    match l.holders[i]? with
    | none => (.ok (), l)
    | some h => (.ok (), ⟨h.reserved.drop l.budget, l.holders.eraseIdx i⟩)

/-- The bytes that an operation asks the budget for, if it gets as far as that. -/
def Operation.request : Operation → Option Nat
  | reserve bytes | hold bytes => some bytes
  | allocate _ type capacity =>
    if capacity ≤ type.maxValue ∧ capacity * type.byteWidth ≤ maxBytes then
      some (capacity * type.byteWidth)
    else none
  | release _ | operate _ _ | drop _ => none

/-- The ledger after operations, one after another, whether they succeeded or failed. -/
def run (l : Ledger) (ops : List Operation) : Ledger :=
  ops.foldl (fun l op => (op.perform l).2) l

/-- The last operation comes after all others. -/
theorem run_concat (l : Ledger) (ops : List Operation) (op : Operation) :
    l.run (ops ++ [op]) = (op.perform (l.run ops)).2 := by
  rw [run, List.foldl_append]
  rfl

/-! ## What an operation comes to -/

/-- What an operation can make of a ledger. -/
inductive Step (l : Ledger) : Operation → Ledger → Prop
  /-- The operation was refused, or there was nothing to be dropped. -/
  | same {op : Operation} : Step l op l
  | reserved {bytes : Nat} {after : Budget} (granted : l.budget.reserve bytes = .ok after) :
      Step l (.reserve bytes) ⟨after, l.holders⟩
  | released (bytes : Nat) : Step l (.release bytes) ⟨l.budget.release bytes, l.holders⟩
  | made {bytes : Nat} {after : Budget} (granted : l.budget.reserve bytes = .ok after) :
      Step l (.hold bytes) ⟨after, l.holders ++ [.reservation ⟨bytes⟩]⟩
  | allocated {grants : Nat → Bool} {type : IndexType} {capacity : Nat} {after : Budget}
      (granted : l.budget.reserve (capacity * type.byteWidth) = .ok after) :
      Step l (.allocate grants type capacity)
        ⟨after, l.holders ++ [.selection (.empty type capacity)]⟩
  /-- There was no buffer for the bytes, which were given back. -/
  | undone {grants : Nat → Bool} {type : IndexType} {capacity : Nat} {after : Budget}
      (granted : l.budget.reserve (capacity * type.byteWidth) = .ok after) :
      Step l (.allocate grants type capacity)
        ⟨after.release (capacity * type.byteWidth), l.holders⟩
  | operated {i : Nat} {op : Selection.Operation} :
      Step l (.operate i op) ⟨l.budget, l.holders.modify i (Holder.operate op)⟩
  | dropped {i : Nat} {h : Holder} (there : l.holders[i]? = some h) :
      Step l (.drop i) ⟨l.budget.release h.bytes, l.holders.eraseIdx i⟩

variable {l : Ledger} {grants : Nat → Bool} {type : IndexType} {capacity : Nat}

/-- An allocation that gets as far as the budget. -/
theorem perform_allocate (hrange : capacity ≤ type.maxValue)
    (hbytes : capacity * type.byteWidth ≤ maxBytes) :
    (Operation.allocate grants type capacity).perform l =
      match l.budget.reserve (capacity * type.byteWidth) with
      | .error e => (.error e, l)
      | .ok after =>
        if grants (capacity * type.byteWidth) then
          (.ok (), ⟨after, l.holders ++ [.selection (.empty type capacity)]⟩)
        else (.error (.memoryRefused (.slots capacity)),
          ⟨after.release (capacity * type.byteWidth), l.holders⟩) := by
  rw [Operation.perform, Selection.allocate_eq hrange hbytes]
  cases l.budget.reserve (capacity * type.byteWidth) with
  | error e => rfl
  | ok after =>
    cases grants (capacity * type.byteWidth) with
    | false => rfl
    | true => rfl

/-- An allocation that does not. -/
theorem exists_perform_allocate_eq_error
    (h : ¬(capacity ≤ type.maxValue ∧ capacity * type.byteWidth ≤ maxBytes)) :
    ∃ e, (Operation.allocate grants type capacity).perform l = (.error e, l) ∧
      e.kind = .capacityTooLarge := by
  obtain ⟨e, he, hkind⟩ := @Selection.exists_allocate_eq_error grants l.budget type capacity h
  refine ⟨e, ?_, hkind⟩
  rw [Operation.perform, he]

/-- Every operation is one of the steps. -/
theorem step_perform (l : Ledger) (op : Operation) : Step l op (op.perform l).2 := by
  cases op with
  | reserve bytes =>
    rw [Operation.perform]
    cases hgranted : l.budget.reserve bytes with
    | error e => exact .same
    | ok after => exact .reserved hgranted
  | release bytes => exact .released bytes
  | hold bytes =>
    rw [Operation.perform, Reservation.make]
    cases hgranted : l.budget.reserve bytes with
    | error e => exact .same
    | ok after => exact .made hgranted
  | allocate grants type capacity =>
    by_cases h : capacity ≤ type.maxValue ∧ capacity * type.byteWidth ≤ maxBytes
    · rw [perform_allocate h.1 h.2]
      cases hgranted : l.budget.reserve (capacity * type.byteWidth) with
      | error e => exact .same
      | ok after =>
        cases grants (capacity * type.byteWidth) with
        | false => exact .undone hgranted
        | true => exact .allocated hgranted
    · obtain ⟨e, he, -⟩ := exists_perform_allocate_eq_error h
      rw [he]
      exact .same
  | operate i op => exact .operated
  | drop i =>
    rw [Operation.perform]
    cases hthere : l.holders[i]? with
    | none => exact .same
    | some h => exact .dropped hthere

/-- What becomes of a request: the budget refuses it, or grants it, and then it can only fail for
lack of a buffer. -/
theorem perform_of_request {op : Operation} {bytes : Nat} (h : op.request = some bytes) :
    (∃ e, l.budget.reserve bytes = .error e ∧ op.perform l = (.error e, l)) ∨
      ∃ after, l.budget.reserve bytes = .ok after ∧
        ((∃ holders, op.perform l = (.ok (), ⟨after, holders⟩)) ∨
          ∃ grants type capacity, op = .allocate grants type capacity ∧ grants bytes = false ∧
            op.perform l =
              (.error (.memoryRefused (.slots capacity)), ⟨after.release bytes, l.holders⟩)) := by
  cases op with
  | release | operate | drop => cases h
  | reserve =>
    cases h
    rw [Operation.perform]
    cases l.budget.reserve bytes with
    | error e => exact Or.inl ⟨e, rfl, rfl⟩
    | ok after => exact Or.inr ⟨after, rfl, Or.inl ⟨_, rfl⟩⟩
  | hold =>
    cases h
    rw [Operation.perform, Reservation.make]
    cases l.budget.reserve bytes with
    | error e => exact Or.inl ⟨e, rfl, rfl⟩
    | ok after => exact Or.inr ⟨after, rfl, Or.inl ⟨_, rfl⟩⟩
  | allocate grants type capacity =>
    rw [Operation.request] at h
    by_cases hfits : capacity ≤ type.maxValue ∧ capacity * type.byteWidth ≤ maxBytes
    · rw [if_pos hfits] at h
      cases h
      rw [perform_allocate hfits.1 hfits.2]
      cases l.budget.reserve (capacity * type.byteWidth) with
      | error e => exact Or.inl ⟨e, rfl, rfl⟩
      | ok after =>
        refine Or.inr ⟨after, rfl, ?_⟩
        cases hgrants : grants (capacity * type.byteWidth) with
        | false => exact Or.inr ⟨grants, type, capacity, rfl, hgrants, rfl⟩
        | true => exact Or.inl ⟨_, rfl⟩
    · rw [if_neg hfits] at h
      cases h

/-- What asks for nothing only fails if it is an allocation of too many slots. -/
theorem perform_of_request_eq_none {op : Operation} {e : Error} (h : op.request = none)
    (he : (op.perform l).1 = .error e) :
    (op.perform l).2 = l ∧ e.kind = .capacityTooLarge := by
  cases op with
  | reserve | hold => cases h
  | release | operate => cases he
  | drop i =>
    rw [Operation.perform] at he
    cases hthere : l.holders[i]? with
    | none => rw [hthere] at he; cases he
    | some holder => rw [hthere] at he; cases he
  | allocate grants type capacity =>
    rw [Operation.request] at h
    by_cases hfits : capacity ≤ type.maxValue ∧ capacity * type.byteWidth ≤ maxBytes
    · rw [if_pos hfits] at h
      cases h
    · obtain ⟨e', he', hkind⟩ := exists_perform_allocate_eq_error hfits
      rw [he'] at he ⊢
      cases he
      exact ⟨rfl, hkind⟩

/-- **Runs**: what holds of a ledger, and what every operation of the run keeps, holds after the
run. -/
theorem run_induct {P : Ledger → Prop} {ops : List Operation}
    (step : ∀ l l', ∀ op ∈ ops, P l → Step l op l' → P l') (h : P l) : P (l.run ops) := by
  induction ops generalizing l with
  | nil => exact h
  | cons op ops ih =>
    refine ih (fun l l' op' hop' => step l l' op' (List.mem_cons_of_mem _ hop')) ?_
    exact step l _ op (List.mem_cons_self ..) h (l.step_perform op)

/-- The limit stays what it is. -/
theorem Step.limit_eq {l' : Ledger} {op : Operation} (step : Step l op l') :
    l'.budget.limit = l.budget.limit := by
  cases step with
  | same => rfl
  | reserved granted => exact Budget.limit_of_reserve granted
  | released bytes => exact Budget.limit_release _ _
  | made granted => exact Budget.limit_of_reserve granted
  | allocated granted => exact Budget.limit_of_reserve granted
  | undone granted => exact (Budget.limit_release _ _).trans (Budget.limit_of_reserve granted)
  | operated => rfl
  | dropped _ => exact Budget.limit_release _ _

/-- The limit is the same all the time. -/
theorem limit_run (l : Ledger) (ops : List Operation) :
    (l.run ops).budget.limit = l.budget.limit :=
  run_induct (P := fun l' => l'.budget.limit = l.budget.limit)
    (fun _ _ _ _ h step => step.limit_eq.trans h) rfl

end Ledger

end RowFilter
