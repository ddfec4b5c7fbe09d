import RowFilter.Proofs.Filter.Exactness

/-!
# Selections under all their operations

A selection is allocated, and then rows are appended to it, it is reset, and filters are evaluated
into it, in any order and with any failures. `Selection.Valid` is what every operation keeps: the
rows ascend, there is a slot for each, and no more slots than the index type has rows. An
evaluation needs no argument of its own, because it is a reset followed by appended rows
(`evaluate_eq_attemptAll`). Main result: `lawful_run`. After any sequence of operations the
selection reads back what was accepted, and accepts exactly what it should.
-/

namespace RowFilter

namespace IndexType

/-- The type of the arrays that hold rows in this width. -/
def arrayType : IndexType → Interchange.ArrayType
  | uint16 => .uint16
  | uint32 => .uint32
  | uint64 => .uint64

end IndexType

/-- The numbers in an array of rows. There are none in arrays of other types. -/
def Interchange.ArrayData.numbers : Interchange.ArrayData → List (Option Nat)
  | .uint16 cells => cells.toList.map (Option.map UInt16.toNat)
  | .uint32 cells => cells.toList.map (Option.map UInt32.toNat)
  | .uint64 cells => cells.toList.map (Option.map UInt64.toNat)
  | _ => []

/-- A slot holds no more than its type has room for. -/
theorem IndexBuffer.le_maxValue {b : IndexBuffer} {row : Nat} (h : row ∈ b.toList) :
    row ≤ b.type.maxValue := by
  cases b with
  | uint16 slots =>
    obtain ⟨x, -, rfl⟩ := List.mem_map.mp h
    have hlt : x.toNat < 2 ^ 16 := x.toNat_lt
    show x.toNat ≤ 0xFFFF
    omega
  | uint32 slots =>
    obtain ⟨x, -, rfl⟩ := List.mem_map.mp h
    have hlt : x.toNat < 2 ^ 32 := x.toNat_lt
    show x.toNat ≤ 0xFFFFFFFF
    omega
  | uint64 slots =>
    obtain ⟨x, -, rfl⟩ := List.mem_map.mp h
    have hlt : x.toNat < 2 ^ 64 := x.toNat_lt
    show x.toNat ≤ 0xFFFFFFFFFFFFFFFF
    omega

namespace Selection

/-! ## The array of a selection -/

/-- The array is of the width of the slots. -/
theorem type_toArray (s : Selection) : s.toArray.type = s.type.arrayType := by
  rw [toArray, type]
  cases s.buffer with
  | uint16 slots => rfl
  | uint32 slots => rfl
  | uint64 slots => rfl

/-- The array holds the rows in order, and no nulls. -/
theorem numbers_toArray (s : Selection) : s.toArray.numbers = s.rows.map some := by
  rw [toArray, rows]
  cases s.buffer with
  | uint16 slots => simp [Interchange.ArrayData.numbers, IndexBuffer.toList]
  | uint32 slots => simp [Interchange.ArrayData.numbers, IndexBuffer.toList]
  | uint64 slots => simp [Interchange.ArrayData.numbers, IndexBuffer.toList]

/-! ## Appending -/

/-- The rows ascend, and the slots are enough for them and not too many for the index type. -/
structure Valid (s : Selection) : Prop where
  increasing : s.rows.Pairwise (· < ·)
  room : s.length ≤ s.capacity
  range : s.capacity ≤ s.maxRow

/-- The selection after an attempt to append a row; a row that is refused changes nothing. -/
def attempt (s : Selection) (row : Nat) : Selection :=
  match s.append row with
  | .ok s' => s'
  | .error _ => s

/-- The selection after attempts to append several rows, one after another. -/
def attemptAll (s : Selection) (attempts : List Nat) : Selection := attempts.foldl attempt s

/-- Those of the rows whose attempts succeed. -/
def accepted (s : Selection) : List Nat → List Nat
  | [] => []
  | row :: attempts =>
    match s.append row with
    | .ok s' => row :: s'.accepted attempts
    | .error _ => s.accepted attempts

/-- A row is stored or refused, and nothing else happens. -/
theorem append_cases (s : Selection) (row : Nat) :
    (s.refusal? row = none ∧ s.append row = .ok (s.push row) ∧ s.attempt row = s.push row) ∨
      ∃ e, s.refusal? row = some e ∧ s.append row = .error e ∧ s.attempt row = s := by
  rw [attempt, append]
  cases s.refusal? row with
  | none => exact Or.inl ⟨rfl, rfl, rfl⟩
  | some e => exact Or.inr ⟨e, rfl, rfl, rfl⟩

/-- What a row that is not refused has passed: there is a slot, the row fits it, and it comes after
the last row. -/
theorem refusal?_eq_none_iff {s : Selection} {row : Nat} :
    s.refusal? row = none ↔
      s.length ≠ s.capacity ∧ row ≤ s.maxRow ∧ ∀ last, s.last? = some last → last < row := by
  rw [refusal?]
  by_cases hfull : s.length = s.capacity
  · simp [hfull]
  · by_cases hlarge : s.maxRow < row
    · simp [hfull, hlarge, Nat.not_le.mpr hlarge]
    · simp [hfull, hlarge, Nat.le_of_not_lt hlarge, Option.filter_eq_none_iff]

/-- A refusal is for the first of the three checks that fails. -/
theorem kind_of_refusal? {s : Selection} {row : Nat} {e : Error} (h : s.refusal? row = some e) :
    e.kind = if s.length = s.capacity then .capacityExceeded
      else if s.maxRow < row then .capacityTooLarge else .invalidParameter := by
  rw [refusal?] at h
  by_cases hfull : s.length = s.capacity
  · rw [if_pos hfull] at h ⊢
    cases h
    rfl
  · rw [if_neg hfull] at h ⊢
    by_cases hlarge : s.maxRow < row
    · rw [if_pos hlarge] at h ⊢
      cases h
      rfl
    · rw [if_neg hlarge] at h ⊢
      obtain ⟨last, -, rfl⟩ := Option.map_eq_some_iff.mp h
      rfl

/-- A row that comes after the last one comes after all of them. -/
theorem Valid.lt_of_last?_lt {s : Selection} (h : s.Valid) {row : Nat}
    (hlast : ∀ last, s.last? = some last → last < row) : ∀ r ∈ s.rows, r < row := by
  intro r hr
  obtain ⟨init, last, hrows⟩ := (List.eq_nil_or_concat s.rows).resolve_left (List.ne_nil_of_mem hr)
  rw [List.concat_eq_append] at hrows
  have hlt : last < row := hlast last (by rw [last?_eq, hrows, List.getLast?_concat])
  have hsorted := h.increasing
  rw [hrows, List.pairwise_append] at hsorted
  rw [hrows] at hr
  rcases List.mem_append.mp hr with hinit | hmem
  · exact Nat.lt_trans (hsorted.2.2 r hinit last (List.mem_singleton_self last)) hlt
  · rw [List.mem_singleton.mp hmem]
    exact hlt

/-- Storing a row that is not refused keeps the order and the room. -/
theorem Valid.push {s : Selection} (h : s.Valid) {row : Nat} (hrefusal : s.refusal? row = none) :
    (s.push row).Valid := by
  obtain ⟨hfree, hfits, hlast⟩ := refusal?_eq_none_iff.mp hrefusal
  have hrows : (s.push row).rows = s.rows ++ [row] := rows_push hfits
  refine ⟨?_, ?_, ?_⟩
  · rw [hrows, List.pairwise_append]
    refine ⟨h.increasing, List.pairwise_singleton _ _, fun r hr r' hr' => ?_⟩
    rw [List.mem_singleton.mp hr']
    exact h.lt_of_last?_lt hlast r hr
  · have hroom := h.room
    rw [← length_rows, hrows, List.length_append, length_rows, capacity_push]
    exact Nat.lt_of_le_of_ne hroom hfree
  · rw [capacity_push, maxRow_push]
    exact h.range

/-- An attempt keeps the invariant, whether it succeeds or not. -/
theorem Valid.attempt {s : Selection} (h : s.Valid) (row : Nat) : (s.attempt row).Valid := by
  rcases s.append_cases row with ⟨hnone, -, heq⟩ | ⟨e, -, -, heq⟩
  · rw [heq]
    exact h.push hnone
  · rw [heq]
    exact h

@[simp] theorem type_attempt (s : Selection) (row : Nat) : (s.attempt row).type = s.type := by
  rcases s.append_cases row with ⟨-, -, heq⟩ | ⟨e, -, -, heq⟩
  · rw [heq, type_push]
  · rw [heq]

@[simp] theorem capacity_attempt (s : Selection) (row : Nat) :
    (s.attempt row).capacity = s.capacity := by
  rcases s.append_cases row with ⟨-, -, heq⟩ | ⟨e, -, -, heq⟩
  · rw [heq, capacity_push]
  · rw [heq]

/-- Attempts one after another keep the invariant. -/
theorem Valid.attemptAll {s : Selection} (h : s.Valid) (attempts : List Nat) :
    (s.attemptAll attempts).Valid := by
  induction attempts generalizing s with
  | nil => exact h
  | cons row attempts ih => exact ih (h.attempt row)

@[simp] theorem type_attemptAll (s : Selection) (attempts : List Nat) :
    (s.attemptAll attempts).type = s.type := by
  induction attempts generalizing s with
  | nil => rfl
  | cons row attempts ih => exact (ih (s.attempt row)).trans (s.type_attempt row)

@[simp] theorem capacity_attemptAll (s : Selection) (attempts : List Nat) :
    (s.attemptAll attempts).capacity = s.capacity := by
  induction attempts generalizing s with
  | nil => rfl
  | cons row attempts ih => exact (ih (s.attempt row)).trans (s.capacity_attempt row)

/-- Attempts add the accepted rows to those that are there, in order and without loss. -/
theorem rows_attemptAll (s : Selection) (attempts : List Nat) :
    (s.attemptAll attempts).rows = s.rows ++ s.accepted attempts := by
  induction attempts generalizing s with
  | nil => exact (List.append_nil _).symm
  | cons row attempts ih =>
    have hstep : (s.attemptAll (row :: attempts)).rows =
        (s.attempt row).rows ++ (s.attempt row).accepted attempts := ih (s.attempt row)
    rw [hstep, accepted]
    rcases s.append_cases row with ⟨hnone, happend, heq⟩ | ⟨e, -, happend, heq⟩
    · rw [heq, happend, rows_push (refusal?_eq_none_iff.mp hnone).2.1, List.append_assoc]
      rfl
    · rw [heq, happend]

/-- A reset keeps the invariant. -/
theorem Valid.reset {s : Selection} (h : s.Valid) : s.reset.Valid where
  increasing := by rw [rows_reset]; exact List.Pairwise.nil
  room := by rw [← length_rows, rows_reset]; exact Nat.zero_le _
  range := by rw [capacity_reset, maxRow_reset]; exact h.range

/-! ## Evaluating a filter -/

/-- The run over the rows appends those that are to be selected, and none of them is refused except
the one that ends the run. -/
theorem selectRows_eq_attemptAll (selects : Nat → Except Error Bool) :
    ∀ (count row : Nat) (s : Selection), ∃ found, s.accepted found = found ∧
      (Filter.selectRows selects count row s).2 = s.attemptAll found := by
  intro count
  induction count with
  | zero => intro row s; exact ⟨[], rfl, rfl⟩
  | succ count ih =>
    intro row s
    rw [Filter.selectRows]
    cases selects row with
    | error e => exact ⟨[], rfl, rfl⟩
    | ok b =>
      cases b with
      | false => exact ih (row + 1) s
      | true =>
        rcases s.append_cases row with ⟨hnone, happend, heq⟩ | ⟨e, hsome, -, -⟩
        · obtain ⟨found, haccepted, hrun⟩ := ih (row + 1) (s.push row)
          simp only [hnone]
          refine ⟨row :: found, ?_, ?_⟩
          · rw [accepted, happend]
            simp only [haccepted]
          · rw [hrun, ← heq]
            rfl
        · simp only [hsome]
          exact ⟨[], rfl, rfl⟩

/-- An evaluation leaves the selection as it is, or it resets it and appends rows, of which none is
refused. -/
theorem evaluate_eq_attemptAll (f : Filter) (batch : Batch) (s : Selection) :
    (f.evaluate batch s).2 = s ∨ ∃ found, s.reset.accepted found = found ∧
      (f.evaluate batch s).2 = s.reset.attemptAll found := by
  rw [Filter.evaluate]
  cases f.resolve batch with
  | error e => exact Or.inl rfl
  | ok columns =>
    by_cases hlong : 0 < batch.rows ∧ s.maxRow < batch.rows - 1
    · refine Or.inl ?_
      simp only [hlong, and_self, if_true]
    · simp only [hlong, if_false]
      obtain ⟨found, haccepted, hrun⟩ :=
        selectRows_eq_attemptAll (f.selects columns.toArray) batch.rows 0 s.reset
      refine Or.inr ⟨found, haccepted, ?_⟩
      rw [← hrun]
      cases Filter.selectRows (f.selects columns.toArray) batch.rows 0 s.reset with
      | mk result s' =>
        cases result with
        | error e => rfl
        | ok _ => rfl

/-- An evaluation keeps the invariant, whether it succeeds or not. -/
theorem Valid.evaluate {s : Selection} (h : s.Valid) (f : Filter) (batch : Batch) :
    (f.evaluate batch s).2.Valid := by
  rcases evaluate_eq_attemptAll f batch s with heq | ⟨found, -, heq⟩
  · rw [heq]
    exact h
  · rw [heq]
    exact h.reset.attemptAll found

/-! ## All operations -/

/-- What can be done to a selection. -/
inductive Operation
  | append (row : Nat)
  | reset
  | evaluate (f : Filter) (batch : Batch)

/-- The selection after an operation, whether that succeeded or failed. -/
def Operation.perform (op : Operation) (s : Selection) : Selection :=
  match op with
  | append row => s.attempt row
  | reset => s.reset
  | evaluate f batch => (f.evaluate batch s).2

/-- The selection after operations, one after another. -/
def run (s : Selection) (ops : List Operation) : Selection :=
  ops.foldl (fun s op => op.perform s) s

/-- Every operation keeps the invariant. -/
theorem Valid.perform {s : Selection} (h : s.Valid) (op : Operation) : (op.perform s).Valid := by
  cases op with
  | append row => exact h.attempt row
  | reset => exact h.reset
  | evaluate f batch => exact h.evaluate f batch

/-- No operation changes the index type. -/
theorem type_perform (s : Selection) (op : Operation) : (op.perform s).type = s.type := by
  cases op with
  | append row => exact s.type_attempt row
  | reset => exact s.type_reset
  | evaluate f batch =>
    rw [Operation.perform]
    rcases evaluate_eq_attemptAll f batch s with heq | ⟨found, -, heq⟩
    · rw [heq]
    · rw [heq, type_attemptAll, type_reset]

/-- No operation changes the count of slots. -/
theorem capacity_perform (s : Selection) (op : Operation) :
    (op.perform s).capacity = s.capacity := by
  cases op with
  | append row => exact s.capacity_attempt row
  | reset => exact s.capacity_reset
  | evaluate f batch =>
    rw [Operation.perform]
    rcases evaluate_eq_attemptAll f batch s with heq | ⟨found, -, heq⟩
    · rw [heq]
    · rw [heq, capacity_attemptAll, capacity_reset]

/-- What a step keeps, a run keeps. -/
theorem Valid.run {s : Selection} (h : s.Valid) (ops : List Operation) : (s.run ops).Valid := by
  induction ops generalizing s with
  | nil => exact h
  | cons op ops ih => exact ih (h.perform op)

/-- The index type is the same all the time. -/
theorem type_run (s : Selection) (ops : List Operation) : (s.run ops).type = s.type := by
  induction ops generalizing s with
  | nil => rfl
  | cons op ops ih => exact (ih (op.perform s)).trans (s.type_perform op)

/-- The count of slots is the same all the time. -/
theorem capacity_run (s : Selection) (ops : List Operation) :
    (s.run ops).capacity = s.capacity := by
  induction ops generalizing s with
  | nil => rfl
  | cons op ops ih => exact (ih (op.perform s)).trans (s.capacity_perform op)

/-! ## Allocation -/

/-- What is allocated is an empty selection of the type and capacity asked for, and its capacity
does not exceed the index type. -/
theorem of_allocate_eq_ok {grants : Nat → Bool} {budget after : Budget} {type : IndexType}
    {capacity : Nat} {s : Selection} (h : allocate grants budget type capacity = (.ok s, after)) :
    s = empty type capacity ∧ capacity ≤ type.maxValue := by
  rw [allocate] at h
  by_cases hbeyond : type.maxValue < capacity
  · simp only [hbeyond, if_true] at h
    cases h
  · by_cases hbytes : maxBytes < (empty type capacity).bytes
    · simp only [hbeyond, hbytes, if_true, if_false] at h
      cases h
    · simp only [hbeyond, hbytes, if_false] at h
      refine ⟨?_, Nat.le_of_not_lt hbeyond⟩
      -- the budget and the buffer only decide whether there is a selection
      split at h
      next => cases h
      next =>
        split at h
        next => cases h; rfl
        next => cases h

@[simp] theorem type_empty (type : IndexType) (capacity : Nat) :
    (empty type capacity).type = type := by
  cases type with
  | uint16 => rfl
  | uint32 => rfl
  | uint64 => rfl

/-- A selection begins with the invariant if its capacity does not exceed its index type. -/
theorem valid_empty {type : IndexType} {capacity : Nat} (h : capacity ≤ type.maxValue) :
    (empty type capacity).Valid := by
  have hrows : (empty type capacity).rows = [] := by
    cases type with
    | uint16 => rfl
    | uint32 => rfl
    | uint64 => rfl
  refine ⟨?_, ?_, ?_⟩
  · rw [hrows]
    exact List.Pairwise.nil
  · rw [← length_rows, hrows]
    exact Nat.zero_le _
  · rw [maxRow, type_empty]
    exact h

/-- The selections that there can be: allocated with some type and capacity, and then operated
on. -/
def Reachable (s : Selection) : Prop :=
  ∃ (grants : Nat → Bool) (budget after : Budget) (type : IndexType) (capacity : Nat)
    (made : Selection) (ops : List Operation),
    allocate grants budget type capacity = (.ok made, after) ∧ made.run ops = s

/-- What was allocated can be there. -/
theorem reachable_of_allocate {grants : Nat → Bool} {budget after : Budget} {type : IndexType}
    {capacity : Nat} {s : Selection} (h : allocate grants budget type capacity = (.ok s, after)) :
    s.Reachable :=
  ⟨grants, budget, after, type, capacity, s, [], h, rfl⟩

/-- The invariant holds of every selection that there can be. -/
theorem Reachable.valid {s : Selection} (h : s.Reachable) : s.Valid := by
  obtain ⟨grants, budget, after, type, capacity, made, ops, hmade, rfl⟩ := h
  obtain ⟨rfl, hle⟩ := of_allocate_eq_ok hmade
  exact (valid_empty hle).run ops

/-! ## What holds of a selection at any time -/

/-- What holds of a selection of a type and a capacity at any time. -/
structure Lawful (type : IndexType) (capacity : Nat) (s : Selection) : Prop where
  type_eq : s.type = type
  capacity_eq : s.capacity = capacity
  /-- There is a slot for each row, and no more slots than the index type allows. -/
  length_le : s.length ≤ capacity
  capacity_le : capacity ≤ type.maxValue
  increasing : s.rows.Pairwise (· < ·)
  rows_le : ∀ row ∈ s.rows, row ≤ type.maxValue
  /-- All ways of reading give the same rows. -/
  length_eq : s.length = s.rows.length
  get_eq : ∀ i, s.get? i = s.rows[i]?
  last_eq : s.last? = s.rows.getLast?
  indices_eq : s.indices.HandsOut s.rows
  array_eq : s.toArray.type = type.arrayType ∧ s.toArray.numbers = s.rows.map some
  /-- Exactly these rows are accepted. -/
  append_ok : ∀ row, (∃ s', s.append row = .ok s') ↔
    s.length < capacity ∧ row ≤ type.maxValue ∧ ∀ last, s.last? = some last → last < row
  append_rows : ∀ row s', s.append row = .ok s' →
    s'.rows = s.rows ++ [row] ∧ s'.type = type ∧ s'.capacity = capacity
  /-- All others are refused for the first reason that applies, and nothing changes. -/
  append_error : ∀ row e, s.append row = .error e →
    (Operation.append row).perform s = s ∧
      e.kind = if s.length = capacity then .capacityExceeded
        else if type.maxValue < row then .capacityTooLarge else .invalidParameter
  /-- Of any rows that are appended after one another, those that are accepted are stored. -/
  appended : ∀ attempts, (s.run (attempts.map .append)).rows = s.rows ++ s.accepted attempts
  /-- An evaluation changes nothing, or it comes to a reset and rows that are all accepted. -/
  evaluated : ∀ f batch, (Operation.evaluate f batch).perform s = s ∨
    ∃ found, s.reset.accepted found = found ∧
      (Operation.evaluate f batch).perform s = s.reset.run (found.map .append)
  reset_eq : s.reset.rows = [] ∧ s.reset.type = type ∧ s.reset.capacity = capacity
  /-- Of any rows that are appended after a reset, those that are accepted are all there is. -/
  appended_since_reset : ∀ attempts,
    (s.reset.run (attempts.map .append)).rows = s.reset.accepted attempts

/-- Attempts to append are operations. -/
theorem run_map_append (s : Selection) (attempts : List Nat) :
    s.run (attempts.map .append) = s.attemptAll attempts := by
  rw [run, attemptAll, List.foldl_map]
  rfl

/-- All of this follows from the invariant. -/
theorem Valid.lawful {s : Selection} (h : s.Valid) : s.Lawful s.type s.capacity where
  type_eq := rfl
  capacity_eq := rfl
  length_le := h.room
  capacity_le := h.range
  increasing := h.increasing
  rows_le _ hrow := IndexBuffer.le_maxValue hrow
  length_eq := s.length_rows.symm
  get_eq i := (s.getElem?_rows i).symm
  last_eq := s.last?_eq
  indices_eq := s.handsOut_indices
  array_eq := ⟨s.type_toArray, s.numbers_toArray⟩
  append_ok row := by
    have hfree : s.length ≠ s.capacity ↔ s.length < s.capacity :=
      ⟨Nat.lt_of_le_of_ne h.room, Nat.ne_of_lt⟩
    rw [← hfree, ← maxRow, ← refusal?_eq_none_iff]
    rcases s.append_cases row with ⟨hnone, happend, -⟩ | ⟨e, hsome, happend, -⟩
    · exact ⟨fun _ => hnone, fun _ => ⟨_, happend⟩⟩
    · rw [hsome, happend]
      simp
  append_rows row s' hs' := by
    rcases s.append_cases row with ⟨hnone, happend, -⟩ | ⟨e, -, happend, -⟩
    · rw [happend] at hs'
      cases hs'
      exact ⟨rows_push (refusal?_eq_none_iff.mp hnone).2.1, s.type_push row, s.capacity_push row⟩
    · rw [happend] at hs'
      cases hs'
  append_error row e he := by
    rcases s.append_cases row with ⟨-, happend, -⟩ | ⟨e', hsome, happend, heq⟩
    · rw [happend] at he
      cases he
    · rw [happend] at he
      cases he
      exact ⟨heq, kind_of_refusal? hsome⟩
  appended attempts := by
    rw [run_map_append]
    exact s.rows_attemptAll attempts
  evaluated f batch := by
    rcases evaluate_eq_attemptAll f batch s with heq | ⟨found, haccepted, heq⟩
    · exact Or.inl heq
    · exact Or.inr ⟨found, haccepted, by rw [run_map_append]; exact heq⟩
  reset_eq := ⟨s.rows_reset, s.type_reset, s.capacity_reset⟩
  appended_since_reset attempts := by
    rw [run_map_append, rows_attemptAll, rows_reset, List.nil_append]

/-- **Selections are exact**: whatever was done to a selection since it was allocated, its rows
ascend and fit, they are what was accepted since the last reset, every way of reading shows them,
and a row is refused only for lack of a slot, for its size or for its place. The index type is any,
also one that was chosen for the capacity or by a configuration. -/
theorem lawful_run {grants : Nat → Bool} {budget after : Budget} {type : IndexType}
    {capacity : Nat} {s : Selection}
    (made : allocate grants budget type capacity = (.ok s, after)) (ops : List Operation) :
    (s.run ops).Lawful type capacity := by
  obtain ⟨rfl, hle⟩ := of_allocate_eq_ok made
  have hlawful := ((valid_empty hle).run ops).lawful
  rw [type_run, capacity_run, type_empty] at hlawful
  exact hlawful

/-- Two slots of 16 bits: the greatest row of the type is stored, the next and a smaller one are
refused, an evaluation replaces all, and the reset leaves room again. -/
theorem sample_operations :
    ((empty .uint16 2).run [.append 65535, .append 65536, .append 7]).rows = [65535] ∧
      ((empty .uint16 2).run [.append 65535, .append 65536, .append 7,
        .evaluate Sample.filter Sample.batch, .append 9, .reset, .append 1]).Lawful .uint16 2 := by
  have made : allocate addressable (.limited 8) .uint16 2 = (.ok (empty .uint16 2), .counted 8 4) :=
    rfl
  refine ⟨?_, lawful_run made _⟩
  exact (lawful_run made []).appended [65535, 65536, 7]

end Selection

end RowFilter
