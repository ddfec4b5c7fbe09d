import Mathlib.Algebra.MvPolynomial.Eval
import Mathlib.Data.Int.ModEq
import Mathlib.Tactic.Ring
import RowFilter.Proofs.Filter.Meaning
import RowFilter.Proofs.Kernel.Information

/-!
# Integer expressions are polynomials modulo `2 ^ 64`

Sums, differences, products and changes of sign of 64-bit integers wrap around, so an expression of
them computes a polynomial of its columns, up to a multiple of `2 ^ 64`. `Expr.interpret` gives such
an expression its value in any ring: in the integers that is its exact value, in the polynomials it
is the polynomial itself, and ring homomorphisms carry one to the other (`map_interpret`). What the
expression denotes is null as soon as an atom is (`denote_of_null`), and what is left of the exact
value in 64 bits otherwise (`denote_of_forall_ne_null`). Main result: `yields_polynomial`.
-/

namespace RowFilter

/-- The integer that a value holds. What holds none counts as zero. -/
def Value.integer : Value → Int
  | .int64 n => n.toInt
  | _ => 0

/-- An integer is known by what it holds. -/
theorem Value.HasType.eq_int64 {v : Value} (h : v.HasType .int64) (hv : v ≠ .null) :
    v = .int64 (.ofInt v.integer) := by
  obtain ⟨-, n, rfl⟩ | ⟨htype, -⟩ := h.number rfl hv
  · rw [integer, Int64.ofInt_toInt]
  · cases htype

/-- What a kernel without rounding or division computes in a ring. -/
def Kernel.interpret {R : Type} [CommRing R] : Kernel → List R → R
  | add, [x, y] => x + y
  | subtract, [x, y] => x - y
  | multiply, [x, y] => x * y
  | negative, [x] => -x
  | _, _ => 0

namespace Expr

/-! ## Atoms -/

/-- A leaf of an expression: the cell of a column in the row, or a constant. -/
inductive Atom
  | column (name : String)
  | constant (v : Value)
  deriving DecidableEq

/-- The value of an atom in a row of a batch. -/
def Atom.value? (b : Batch) (row : Nat) : Atom → Option Value
  | column name => (b.columnNamed? name).bind (·.get? row)
  | constant v => some v

mutual

/-- The leaves, from left to right, each as often as it occurs. -/
def atoms : Expr → List Atom
  | field f => [.column f.name]
  | literal v _ => [.constant v]
  | call _ args => atomsList args

def atomsList : List Expr → List Atom
  | [] => []
  | e :: es => e.atoms ++ atomsList es

end

theorem mem_atomsList_iff {es : List Expr} {a : Atom} :
    a ∈ atomsList es ↔ ∃ e ∈ es, a ∈ e.atoms := by
  induction es with
  | nil => simp [atomsList]
  | cons e es ih => rw [atomsList, List.mem_append, ih, List.exists_mem_cons_iff]

/-! ## Values in rings -/

mutual

/-- The value in a ring of an expression of integers, given the values of the columns. -/
def interpret {R : Type} [CommRing R] (column : String → R) : Expr → R
  | field f => column f.name
  | literal v _ => (v.integer : R)
  | call signature args => signature.kernel.interpret (interpretList column args)

def interpretList {R : Type} [CommRing R] (column : String → R) : List Expr → List R
  | [] => []
  | e :: es => e.interpret column :: interpretList column es

end

/-- The exact value in a row, from the integers in the columns. -/
def exact (b : Batch) (row : Nat) : Expr → Int :=
  interpret fun name => ((Atom.column name).value? b row).elim 0 Value.integer

/-- The expression as a polynomial with a variable for each column. -/
noncomputable def polynomial : Expr → MvPolynomial String Int := interpret .X

section Homomorphism

variable {R S : Type} [CommRing R] [CommRing S]

theorem map_kernel_interpret (φ : R →+* S) (k : Kernel) (xs : List R) :
    φ (k.interpret xs) = k.interpret (xs.map φ) := by
  match xs with
  | [] => cases k <;> exact map_zero φ
  | [x] =>
    cases k with
    | negative => exact map_neg φ x
    | _ => exact map_zero φ
  | [x, y] =>
    cases k with
    | add => exact map_add φ x y
    | subtract => exact map_sub φ x y
    | multiply => exact map_mul φ x y
    | _ => exact map_zero φ
  | _ :: _ :: _ :: _ => cases k <;> exact map_zero φ

mutual

/-- A homomorphism carries the values of the columns to those of the expression. -/
theorem map_interpret (φ : R →+* S) (column : String → R) :
    ∀ e : Expr, φ (e.interpret column) = e.interpret fun name => φ (column name)
  | .field f => by
    rw [interpret, interpret]
  | .literal v type => by
    rw [interpret, interpret]
    exact map_intCast φ v.integer
  | .call signature args => by
    rw [interpret, interpret, map_kernel_interpret, map_interpretList φ column args]

theorem map_interpretList (φ : R →+* S) (column : String → R) :
    ∀ es : List Expr,
      (interpretList column es).map φ = interpretList (fun name => φ (column name)) es
  | [] => by
    rw [interpretList, interpretList, List.map_nil]
  | e :: es => by
    rw [interpretList, interpretList, List.map_cons, map_interpret φ column e,
      map_interpretList φ column es]

end

end Homomorphism

/-- The exact value is that of the polynomial. -/
theorem exact_eq_eval (b : Batch) (row : Nat) (e : Expr) :
    e.exact b row =
      MvPolynomial.eval (fun name => ((Atom.column name).value? b row).elim 0 Value.integer)
        e.polynomial := by
  unfold exact polynomial
  rw [map_interpret]
  simp only [MvPolynomial.eval_X]

/-! ## Wrapping around -/

/-- What is left of an integer in 64 bits is the one integer of their range that is congruent. -/
theorem eq_toInt_ofInt_iff {n x : Int} :
    x = (Int64.ofInt n).toInt ↔
      -0x8000000000000000 ≤ x ∧ x < 0x8000000000000000 ∧ x ≡ n [ZMOD 0x10000000000000000] := by
  rw [Int64.toInt_ofInt, eq_comm, Int.bmod_eq_iff (by decide), ← Int.modEq_iff_dvd]
  have hsize : (Int64.size : Int) = 0x10000000000000000 := rfl
  rw [hsize]
  constructor
  · intro ⟨hlow, hhigh, hmod⟩
    exact ⟨by omega, by omega, hmod.symm⟩
  · intro ⟨hlow, hhigh, hmod⟩
    exact ⟨by omega, by omega, hmod.symm⟩

end Expr

namespace Kernel

/-- The kernels of two operands compute in 64 bits what is left of the exact result. -/
theorem call_integers {k : Kernel} (hk : k ∈ [add, subtract, multiply]) (x y : Int) :
    k.call [.int64 (.ofInt x), .int64 (.ofInt y)] = .ok (.int64 (.ofInt (k.interpret [x, y]))) := by
  obtain rfl | rfl | rfl := by simpa using hk
  · rw [interpret, Int64.ofInt_add]
    rfl
  · rw [interpret, Int64.ofInt_sub]
    rfl
  · rw [interpret, Int64.ofInt_mul]
    rfl

/-- So does the kernel of one operand. -/
theorem call_negative (x : Int) :
    negative.call [.int64 (.ofInt x)] = .ok (.int64 (.ofInt (negative.interpret [x]))) := by
  rw [interpret, Int64.ofInt_neg]
  rfl

/-- With an integer as the result, these kernels take two integers or one. -/
theorem Typing.integers {k : Kernel} {args : List DataType} {ret : DataType} (h : Typing k args ret)
    (hk : k ∈ [add, subtract, multiply, negative]) (hret : ret = .int64) :
    (k ∈ [add, subtract, multiply] ∧ args = [.int64, .int64]) ∨
      (k = negative ∧ args = [.int64]) := by
  cases h with
  | arithmetic hk' ht =>
    subst hret
    refine Or.inl ⟨?_, rfl⟩
    obtain rfl | rfl | rfl | rfl := by simpa using hk
    · simp
    · simp
    · simp
    · simp at hk'
  | sign ht =>
    subst hret
    exact Or.inr ⟨rfl, rfl⟩
  | equality | order | negation | connective | nullTest => cases hret

end Kernel

namespace Expr

/-- Every call is a sum, a difference, a product or a change of sign of integers. -/
def Integral (e : Expr) : Prop :=
  ∀ signature args, Part (.call signature args) e →
    signature.kernel ∈ [Kernel.add, .subtract, .multiply, .negative] ∧ signature.ret = .int64

@[simp] theorem integral_field (f : Field) : (Expr.field f).Integral := nofun

@[simp] theorem integral_literal (v : Value) (type : DataType) : (Expr.literal v type).Integral :=
  nofun

@[simp] theorem integral_call_iff {signature : Signature} {args : List Expr} :
    (Expr.call signature args).Integral ↔
      (signature.kernel ∈ [Kernel.add, .subtract, .multiply, .negative] ∧
        signature.ret = .int64) ∧ ∀ a ∈ args, a.Integral := by
  constructor
  · intro h
    exact ⟨h signature args (.self _), fun a ha s as hpart => h s as (.operand ha hpart)⟩
  · intro ⟨hcall, hargs⟩ s as hpart
    cases hpart with
    | self => exact hcall
    | operand ha h => exact hargs _ ha s as h

section Denotation

variable {b : Batch} {row : Nat}

/-- The value of an operand is among those of all operands. -/
theorem mem_of_denoteList {args : List Expr} {vs : List Value}
    (h : denoteList b row args = some vs) {a : Expr} (ha : a ∈ args) {v : Value}
    (hv : a.denote b row = some v) : v ∈ vs := by
  induction args generalizing vs with
  | nil => cases ha
  | cons e es ih =>
    rw [denoteList, Option.bind_eq_some_iff] at h
    obtain ⟨w, hw, hrest⟩ := h
    obtain ⟨ws, hws, rfl⟩ := Option.map_eq_some_iff.mp hrest
    rcases List.mem_cons.mp ha with rfl | hmem
    · rw [hw, Option.some_inj] at hv
      rw [hv]
      exact List.mem_cons_self ..
    · exact List.mem_cons_of_mem _ (ih hws hmem)

/-- An integral expression is null as soon as an atom is, because its kernels propagate nulls. -/
theorem WellTyped.denote_of_null {e : Expr} (typed : e.WellTyped) (integral : e.Integral)
    (hrow : row < b.rows) (declared : ∀ f ∈ e.leaves, b.schema.Declares f)
    (hnull : ∃ a ∈ e.atoms, a.value? b row = some .null) : e.denote b row = some .null := by
  induction typed with
  | field f =>
    obtain ⟨a, ha, hvalue⟩ := hnull
    rw [atoms, List.mem_singleton] at ha
    rw [denote, ← hvalue, ha]
    rfl
  | literal =>
    obtain ⟨a, ha, hvalue⟩ := hnull
    rw [atoms, List.mem_singleton] at ha
    rw [denote, ← hvalue, ha]
    rfl
  | @call signature args fits types operands ih =>
    obtain ⟨a, ha, hvalue⟩ := hnull
    obtain ⟨e, he, ha⟩ := mem_atomsList_iff.mp ha
    obtain ⟨⟨hk, -⟩, hargs⟩ := integral_call_iff.mp integral
    have hdeclared : ∀ c ∈ args, ∀ f ∈ c.leaves, b.schema.Declares f := fun c hc f hf =>
      declared f (mem_leavesList hc hf)
    -- the other operands have values too, so the kernel is reached
    have hdenote := ih e he (hargs e he) (hdeclared e he) ⟨a, ha, hvalue⟩
    obtain ⟨vs, hvs, -⟩ := exists_denoteList fun c hc =>
      (operands c hc).exists_denote hrow (hdeclared c hc)
    have hpropagate : ∀ k ∈ [Kernel.add, .subtract, .multiply, .negative],
        k.nullHandling = .propagate := by
      decide
    have hcall : signature.kernel.call vs = .ok .null :=
      Kernel.call_of_propagate (hpropagate _ hk) (mem_of_denoteList hvs he hdenote)
    rw [denote_call, hvs, Option.bind_some, hcall]
    rfl

/-- If no atom is null, an integral expression is what is left of its exact value in 64 bits. -/
theorem WellTyped.denote_of_forall_ne_null {e : Expr} (typed : e.WellTyped) (integral : e.Integral)
    (isInt : e.type = .int64) (hrow : row < b.rows)
    (declared : ∀ f ∈ e.leaves, b.schema.Declares f)
    (hsome : ∀ a ∈ e.atoms, a.value? b row ≠ some .null) :
    e.denote b row = some (.int64 (.ofInt (e.exact b row))) := by
  induction typed with
  | field f =>
    obtain ⟨v, hv, htype⟩ := Batch.exists_cell? (declared f (List.mem_singleton_self f)) hrow
    have hvalue : (Atom.column f.name).value? b row = some v := hv
    have hne : v ≠ .null := by
      intro hnull
      exact hsome _ (List.mem_singleton_self _) (hnull ▸ hvalue)
    have hint : v.HasType .int64 := isInt ▸ htype
    rw [denote_field, hv, exact, interpret, hvalue, Option.elim_some, ← hint.eq_int64 hne]
  | @literal v t hv ht =>
    have hne : v ≠ .null := by
      intro hnull
      exact hsome (.constant v) (List.mem_singleton_self _) (congrArg some hnull)
    have hint : v.HasType .int64 := isInt ▸ hv
    rw [denote, exact, interpret, Int.cast_id, ← hint.eq_int64 hne]
  | @call signature args fits types operands ih =>
    obtain ⟨⟨hk, hret⟩, hintegral⟩ := integral_call_iff.mp integral
    have hoperand : ∀ a ∈ args, a.type = .int64 →
        a.denote b row = some (.int64 (.ofInt (a.exact b row))) := fun a ha htype =>
      ih a ha (hintegral a ha) htype (fun f hf => declared f (mem_leavesList ha hf))
        fun atom hatom => hsome atom (mem_atomsList_iff.mpr ⟨a, ha, hatom⟩)
    -- the operands are integers, because the result is one
    rcases (Kernel.typing_of_accepts fits).integers hk hret with ⟨hk, hargs⟩ | ⟨hk, hargs⟩
    · rw [hargs, List.map_eq_cons_iff] at types
      obtain ⟨l, rest, rfl, hl, hrest⟩ := types
      obtain ⟨r, rfl, hr⟩ := List.map_eq_singleton_iff.mp hrest
      have hcall := Kernel.call_integers hk (l.exact b row) (r.exact b row)
      rw [denote_call_two signature (hoperand l (by simp) hl) (hoperand r (by simp) hr), hcall]
      rfl
    · rw [hargs] at types
      obtain ⟨a, rfl, ha⟩ := List.map_eq_singleton_iff.mp types
      rw [denote_call_one signature (hoperand a (by simp) ha), hk, Kernel.call_negative, exact,
        interpret, hk]
      rfl

/-- An atom is null if it is the cell of a column that is, or a null constant. -/
theorem exists_atom_null_iff {e : Expr} :
    (∃ a ∈ e.atoms, a.value? b row = some .null) ↔
      (∃ name, Atom.column name ∈ e.atoms ∧ (Atom.column name).value? b row = some .null) ∨
        Atom.constant .null ∈ e.atoms := by
  constructor
  · intro ⟨a, ha, hvalue⟩
    cases a with
    | column name => exact Or.inl ⟨name, ha, hvalue⟩
    | constant v =>
      rw [Atom.value?, Option.some_inj] at hvalue
      exact Or.inr (hvalue ▸ ha)
  · intro h
    cases h with
    | inl h =>
      obtain ⟨name, hname, hvalue⟩ := h
      exact ⟨.column name, hname, hvalue⟩
    | inr h => exact ⟨.constant .null, h, rfl⟩

/-- Integral expressions denote the same if they are null in the same rows and are one polynomial,
whatever their calls are. -/
theorem WellTyped.denote_eq_of_polynomial_eq {e e' : Expr} (typed : e.WellTyped)
    (typed' : e'.WellTyped) (integral : e.Integral) (integral' : e'.Integral)
    (isInt : e.type = .int64) (isInt' : e'.type = .int64) (hrow : row < b.rows)
    (declared : ∀ f ∈ e.leaves, b.schema.Declares f)
    (declared' : ∀ f ∈ e'.leaves, b.schema.Declares f)
    (hnull : (∃ a ∈ e'.atoms, a.value? b row = some .null) ↔
      ∃ a ∈ e.atoms, a.value? b row = some .null)
    (hpolynomial : e'.polynomial = e.polynomial) : e'.denote b row = e.denote b row := by
  by_cases h : ∃ a ∈ e.atoms, a.value? b row = some .null
  · rw [typed.denote_of_null integral hrow declared h,
      typed'.denote_of_null integral' hrow declared' (hnull.mpr h)]
  · have hsome : ∀ a ∈ e.atoms, a.value? b row ≠ some .null := fun a ha hvalue => h ⟨a, ha, hvalue⟩
    have hsome' : ∀ a ∈ e'.atoms, a.value? b row ≠ some .null := fun a ha hvalue =>
      h (hnull.mp ⟨a, ha, hvalue⟩)
    rw [typed.denote_of_forall_ne_null integral isInt hrow declared hsome,
      typed'.denote_of_forall_ne_null integral' isInt' hrow declared' hsome', exact_eq_eval,
      exact_eq_eval, hpolynomial]

end Denotation

/-- **Integer expressions are polynomials modulo `2 ^ 64`**: an expression of sums, differences,
products and changes of sign is null in a row if one of its atoms is. Otherwise it is the one 64-bit
integer that is congruent to its exact value. Hence two of them that read the same columns, and both
or neither have a null constant, yield the same in every row if they are one polynomial. -/
theorem yields_polynomial {e : Expr} (built : e.Built) (integral : e.Integral)
    (isInt : e.type = .int64) {schema : Schema} {batch : Batch} (binds : e.Binds schema batch)
    {row : Nat} (hrow : row < batch.rows) :
    (e.Yields schema batch row .null ↔ ∃ a ∈ e.atoms, a.value? batch row = some .null) ∧
    ((∀ a ∈ e.atoms, a.value? batch row ≠ some .null) →
      ∃ n : Int64, e.Yields schema batch row (.int64 n) ∧
        ∀ x : Int, x = n.toInt ↔ -0x8000000000000000 ≤ x ∧ x < 0x8000000000000000 ∧
          x ≡ e.exact batch row [ZMOD 0x10000000000000000]) ∧
    ∀ e' : Expr, e'.Built → e'.Integral → e'.type = .int64 → e'.Binds schema batch →
      (∀ name, Atom.column name ∈ e'.atoms ↔ Atom.column name ∈ e.atoms) →
      (Atom.constant .null ∈ e'.atoms ↔ Atom.constant .null ∈ e.atoms) →
      e'.polynomial = e.polynomial →
        ∀ v, e'.Yields schema batch row v ↔ e.Yields schema batch row v := by
  have typed := built.wellTyped
  have declared : ∀ f ∈ e.leaves, batch.schema.Declares f := fun f hf => (binds.declares f hf).2
  refine ⟨?_, ?_, ?_⟩
  · rw [binds.yields_iff]
    constructor
    · intro hdenote
      apply Classical.byContradiction
      intro hnone
      rw [typed.denote_of_forall_ne_null integral isInt hrow declared fun a ha hvalue =>
        hnone ⟨a, ha, hvalue⟩] at hdenote
      cases hdenote
    · exact typed.denote_of_null integral hrow declared
  · intro hsome
    refine ⟨.ofInt (e.exact batch row), ?_, fun x => eq_toInt_ofInt_iff⟩
    rw [binds.yields_iff]
    exact typed.denote_of_forall_ne_null integral isInt hrow declared hsome
  · intro e' built' integral' isInt' binds' hcolumns hnulls hpolynomial v
    have declared' : ∀ f ∈ e'.leaves, batch.schema.Declares f := fun f hf =>
      (binds'.declares f hf).2
    have hnull : (∃ a ∈ e'.atoms, a.value? batch row = some .null) ↔
        ∃ a ∈ e.atoms, a.value? batch row = some .null := by
      rw [exists_atom_null_iff, exists_atom_null_iff]
      simp only [hcolumns, hnulls]
    rw [binds.yields_iff, binds'.yields_iff,
      typed.denote_eq_of_polynomial_eq built'.wellTyped integral integral' isInt isInt' hrow
        declared declared' hnull hpolynomial]

end Expr

namespace Sample

/-- `multiply(add(amount, 1), 2 ^ 62)` -/
def product : Expr :=
  .call (Registry.builtinSignature .multiply [.int64, .int64] .int64)
    [.call (Registry.builtinSignature .add [.int64, .int64] .int64)
      [.field amount, .literal (.int64 1) .int64], .literal (.int64 0x4000000000000000) .int64]

/-- `add(multiply(amount, 2 ^ 62), 2 ^ 62)` -/
def expanded : Expr :=
  .call (Registry.builtinSignature .add [.int64, .int64] .int64)
    [.call (Registry.builtinSignature .multiply [.int64, .int64] .int64)
      [.field amount, .literal (.int64 0x4000000000000000) .int64],
      .literal (.int64 0x4000000000000000) .int64]

end Sample

/-- In row 0, where the amount is 1, both wrap around to the least integer, and in row 2 the amount
is null. -/
theorem Expr.sample_polynomial :
    Sample.product.Yields Sample.schema Sample.batch 2 .null ∧
      (∃ n : Int64, Sample.product.Yields Sample.schema Sample.batch 0 (.int64 n) ∧
        n.toInt = -0x8000000000000000) ∧
      ∀ v, Sample.expanded.Yields Sample.schema Sample.batch 0 v ↔
        Sample.product.Yields Sample.schema Sample.batch 0 v := by
  have hamount : (Expr.field Sample.amount).Built := .field Sample.amount
  have hconstant : ∀ n : Int64, (Expr.literal (.int64 n) .int64).Built := fun n =>
    .literal (v := .int64 n) rfl
  have built : Sample.product.Built :=
    .call_two .standard "multiply" .int64 .builtin
      (.call_two .standard "add" .int64 .builtin hamount (hconstant 1) rfl) (hconstant _) rfl
  have built' : Sample.expanded.Built :=
    .call_two .standard "add" .int64 .builtin
      (.call_two .standard "multiply" .int64 .builtin hamount (hconstant _) rfl) (hconstant _) rfl
  have integral : Sample.product.Integral := by
    simp [Sample.product, Registry.builtinSignature]
  have integral' : Sample.expanded.Integral := by
    simp [Sample.expanded, Registry.builtinSignature]
  have declared : ∀ f ∈ [Sample.amount],
      Sample.schema.Declares f ∧ Sample.batch.schema.Declares f := by
    intro f hf
    rw [List.mem_singleton.mp hf]
    exact Sample.declares_amount
  have binds : Sample.product.Binds Sample.schema Sample.batch :=
    built.wellTyped.binds_iff.mpr declared
  have binds' : Sample.expanded.Binds Sample.schema Sample.batch :=
    built'.wellTyped.binds_iff.mpr declared
  have hone : (Value.int64 1).integer = 1 := rfl
  have hpolynomial : Sample.expanded.polynomial = Sample.product.polynomial := by
    simp only [polynomial, Sample.expanded, Sample.product, interpret, interpretList,
      Kernel.interpret, Registry.builtinSignature, hone, Int.cast_one]
    ring
  have hlast : 2 < Sample.batch.rows := by decide
  have hfirst : 0 < Sample.batch.rows := by decide
  obtain ⟨hnull, -, -⟩ := yields_polynomial built integral rfl binds hlast
  obtain ⟨-, hvalue, hsame⟩ := yields_polynomial built integral rfl binds hfirst
  obtain ⟨n, hn, hinteger⟩ := hvalue (by decide)
  refine ⟨hnull.mpr ⟨.column "amount", by decide, rfl⟩, ⟨n, hn, ?_⟩,
    hsame _ built' integral' rfl binds' (fun name => ?_) ?_ hpolynomial⟩
  · exact ((hinteger _).mpr (by decide)).symm
  · simp [Sample.expanded, Sample.product, atoms, atomsList]
  · decide

end RowFilter
