import RowFilter.Proofs.Expr.Connectives
import RowFilter.Proofs.Filter.Meaning

/-!
# What many operands select together

`Builder.Connects` says what a connective makes of its operands in a batch: in every row it yields
what three-valued logic makes of the values of all the operands, in whatever order they come, and
its negation selects what the other connective selects with negated operands. Main result:
`connects_extended`. Both connectives do so whatever functions were registered besides the initial
ones, and they select the intersection and the union of what the operands select.
-/

namespace RowFilter

open Kernel

namespace Expr

variable {d : Bool} {es : List Expr} {e : Expr} {schema : Schema} {batch : Batch} {row : Nat}

/-- A boolean expression that binds is true, false or null in every row. -/
theorem Binds.truth (h : e.Binds schema batch) (typed : e.WellTyped) (isBool : e.type = .bool)
    (hrow : row < batch.rows) : e.Truth batch row := by
  obtain ⟨v, hv, htype⟩ := typed.exists_denote hrow fun f hf => (h.declares f hf).2
  exact .of_denote hv (isBool ▸ htype)

/-- What is joined binds just if every operand does. -/
theorem Connected.binds_iff (h : Connected d es e) (typed : ∀ a ∈ es, a.WellTyped) :
    e.Binds schema batch ↔ ∀ a ∈ es, a.Binds schema batch := by
  rw [(h.wellTyped typed).binds_iff, h.leaves_eq]
  constructor
  · intro hall a ha
    rw [(typed a ha).binds_iff]
    exact fun f hf => hall f (List.mem_flatMap.mpr ⟨a, ha, hf⟩)
  · intro hall f hf
    obtain ⟨a, ha, hf⟩ := List.mem_flatMap.mp hf
    exact (hall a ha).declares f hf

/-- Then every operand is true, false or null in every row. -/
theorem Connected.truth (h : Connected d es e) (typed : ∀ a ∈ es, a.WellTyped)
    (isBool : ∀ a ∈ es, a.type = .bool) (hbinds : e.Binds schema batch) :
    ∀ row < batch.rows, ∀ a ∈ es, a.Truth batch row := by
  intro row hrow a ha
  have hbinds' := (h.binds_iff typed).mp hbinds a ha
  exact hbinds'.truth (typed a ha) (isBool a ha) hrow

/-- If the operands bind, what is joined of them selects the rows in which it is true. -/
theorem Connected.selects_trueRows (h : Connected d es e) (typed : ∀ a ∈ es, a.WellTyped)
    (hall : ∀ a ∈ es, a.Binds schema batch) : e.Selects schema batch (e.trueRows batch) :=
  (h.wellTyped typed).selects_trueRows h.type_eq ((h.binds_iff typed).mpr hall)

/-- The negation binds just if the operand does. -/
theorem binds_negated_iff (typed : e.WellTyped) (isBool : e.type = .bool) :
    e.negated.Binds schema batch ↔ e.Binds schema batch := by
  rw [(wellTyped_negated typed isBool).binds_iff, typed.binds_iff, leaves_negated]

/-- A conjunction is true in the rows in which all operands are. -/
theorem Connected.mem_trueRows_and (h : Connected false es e)
    (hall : ∀ row < batch.rows, ∀ a ∈ es, a.Truth batch row) (hne : es ≠ []) :
    row ∈ e.trueRows batch ↔ ∀ a ∈ es, row ∈ a.trueRows batch := by
  simp only [mem_trueRows_iff]
  constructor
  · rintro ⟨hrow, htrue⟩ a ha
    exact ⟨hrow, (h.denote_true_iff_forall (hall row hrow)).mp htrue a ha⟩
  · intro hmem
    -- there is an operand to tell that the row is one of the batch
    obtain ⟨a, ha⟩ := List.exists_mem_of_ne_nil es hne
    have hrow := (hmem a ha).1
    exact ⟨hrow, (h.denote_true_iff_forall (hall row hrow)).mpr fun a ha => (hmem a ha).2⟩

/-- A disjunction is true in the rows in which some operand is. -/
theorem Connected.mem_trueRows_or (h : Connected true es e)
    (hall : ∀ row < batch.rows, ∀ a ∈ es, a.Truth batch row) :
    row ∈ e.trueRows batch ↔ ∃ a ∈ es, row ∈ a.trueRows batch := by
  simp only [mem_trueRows_iff]
  constructor
  · rintro ⟨hrow, htrue⟩
    obtain ⟨a, ha, htrue⟩ := (h.denote_true_iff_exists (hall row hrow)).mp htrue
    exact ⟨a, ha, hrow, htrue⟩
  · rintro ⟨a, ha, hrow, htrue⟩
    exact ⟨hrow, (h.denote_true_iff_exists (hall row hrow)).mpr ⟨a, ha, htrue⟩⟩

end Expr

namespace Builder

/-- What a connective, which the truth value `d` decides, makes of its operands in a batch. -/
structure Connects (b : Builder) (d : Bool) (operands : List Expr) (e : Expr) (schema : Schema)
    (batch : Batch) : Prop where
  /-- In each row the operands have values. The result is `d` if one of these is, else null if one
  is null, else the other truth value. -/
  yields : ∀ row < batch.rows, ∃ value : Expr → Value,
    (∀ a ∈ operands, a.Yields schema batch row (value a)) ∧
      e.Yields schema batch row (decidedBy d (operands.map value))
  /-- The result and the operands select the rows in which they are true. -/
  selects : ∀ a ∈ e :: operands, a.Selects schema batch (a.trueRows batch)
  /-- The same operands in another order, any of them repeated, select the same rows. -/
  rearranged : ∀ operands' : List Expr, 2 ≤ operands'.length →
    (∀ a, a ∈ operands' ↔ a ∈ operands) →
      ∃ e', b.connect d operands' = .ok e' ∧ e'.Selects schema batch (e.trueRows batch)
  /-- The negation selects what the other connective selects with the negations. -/
  negated : ∃ denial denials other, b.call "not" [e] .bool = .ok denial ∧
    operands.mapM (fun a => b.call "not" [a] .bool) = .ok denials ∧
    b.connect (!d) denials = .ok other ∧ other.Selects schema batch (other.trueRows batch) ∧
    denial.Selects schema batch (other.trueRows batch)

/-- Calls of a connective on boolean operands do that. -/
theorem connects_of_connected (signatures : List Signature) {d : Bool} {operands : List Expr}
    {e : Expr} {schema : Schema} {batch : Batch} (h : Expr.Connected d operands e)
    (typed : ∀ a ∈ operands, a.WellTyped) (isBool : ∀ a ∈ operands, a.type = .bool)
    (two : 2 ≤ operands.length) (hbinds : e.Binds schema batch) :
    (extended signatures).Connects d operands e schema batch := by
  have hall := (h.binds_iff typed).mp hbinds
  have truth := h.truth typed isBool hbinds
  constructor
  case yields =>
    intro row hrow
    refine ⟨Expr.valueIn batch row, fun a ha => ?_, ?_⟩
    · exact (hall a ha).yields_iff.mpr (truth row hrow a ha).1
    · exact hbinds.yields_iff.mpr (h.denote_eq (truth row hrow))
  case selects =>
    rw [List.forall_mem_cons]
    exact ⟨h.selects_trueRows typed hall, fun a ha =>
      (typed a ha).selects_trueRows (isBool a ha) (hall a ha)⟩
  case rearranged =>
    intro operands' two' hmem
    obtain ⟨e', he', h'⟩ :=
      exists_connect signatures d (fun a ha => isBool a ((hmem a).mp ha)) two'
    have hsame : e'.trueRows batch = e.trueRows batch :=
      Expr.trueRows_congr fun row hrow => h.denote_eq_of_mem_iff h' (truth row hrow) hmem
    refine ⟨e', he', ?_⟩
    rw [← hsame]
    exact h'.selects_trueRows (fun a ha => typed a ((hmem a).mp ha)) fun a ha =>
      hall a ((hmem a).mp ha)
  case negated =>
    have typed' : ∀ a ∈ operands.map Expr.negated, a.WellTyped := by
      simpa using fun a ha => Expr.wellTyped_negated (typed a ha) (isBool a ha)
    have isBool' : ∀ a ∈ operands.map Expr.negated, a.type = .bool :=
      List.forall_mem_map.mpr fun _ _ => rfl
    obtain ⟨other, hother, h'⟩ :=
      exists_connect signatures (!d) isBool' (by rwa [List.length_map])
    have hall' : ∀ a ∈ operands.map Expr.negated, a.Binds schema batch := by
      rw [List.forall_mem_map]
      exact fun a ha => (Expr.binds_negated_iff (typed a ha) (isBool a ha)).mpr (hall a ha)
    have hsame : e.negated.trueRows batch = other.trueRows batch :=
      Expr.trueRows_congr fun row hrow => h.denote_negated h' (truth row hrow)
    refine ⟨e.negated, operands.map Expr.negated, other, call_not h.type_eq, mapM_call_not isBool,
      hother, h'.selects_trueRows typed' hall', ?_⟩
    rw [← hsame]
    exact (Expr.wellTyped_negated (h.wellTyped typed) h.type_eq).selects_trueRows rfl
      ((Expr.binds_negated_iff (h.wellTyped typed) h.type_eq).mpr hbinds)

/-- **Connectives of many operands**: whatever is registered besides the initial functions, two or
more boolean expressions that were built have a conjunction and a disjunction. In every batch that
these bind to, they obey the rules of three-valued logic for all the operands together, and select
the intersection and the union of the rows that the operands select. -/
theorem connects_extended (signatures : List Signature) {operands : List Expr}
    (two : 2 ≤ operands.length) (built : ∀ a ∈ operands, a.Built ∧ a.type = .bool) :
    ∃ all any, (extended signatures).conjunction operands = .ok all ∧
      (extended signatures).disjunction operands = .ok any ∧
      ∀ (schema : Schema) (batch : Batch),
        (all.Binds schema batch →
          (extended signatures).Connects false operands all schema batch ∧
          ∀ row, row ∈ all.trueRows batch ↔ ∀ a ∈ operands, row ∈ a.trueRows batch) ∧
        (any.Binds schema batch →
          (extended signatures).Connects true operands any schema batch ∧
          ∀ row, row ∈ any.trueRows batch ↔ ∃ a ∈ operands, row ∈ a.trueRows batch) := by
  have typed : ∀ a ∈ operands, a.WellTyped := fun a ha => (built a ha).1.wellTyped
  have isBool : ∀ a ∈ operands, a.type = .bool := fun a ha => (built a ha).2
  have hne : operands ≠ [] := by
    rintro rfl
    cases two
  obtain ⟨all, hall, hconj⟩ := exists_connect signatures false isBool two
  obtain ⟨any, hany, hdisj⟩ := exists_connect signatures true isBool two
  refine ⟨all, any, hall, hany, fun schema batch => ⟨fun hbinds => ?_, fun hbinds => ?_⟩⟩
  · exact ⟨connects_of_connected signatures hconj typed isBool two hbinds,
      fun row => hconj.mem_trueRows_and (hconj.truth typed isBool hbinds) hne⟩
  · exact ⟨connects_of_connected signatures hdisj typed isBool two hbinds,
      fun row => hdisj.mem_trueRows_or (hdisj.truth typed isBool hbinds)⟩

end Builder

namespace Sample

/-- An overload that can be registered, and one whose types are taken. -/
def signatures : List Signature :=
  [⟨"and", [.int64, .int64], .bool, .equal⟩, ⟨"and", [.bool, .bool], .bool, .equal⟩]

/-- `and(less_than(amount, 3), active)`, the condition and `active` -/
def operands : List Expr := [both, condition.root, .field active]

/-- The first two operands are joined first. -/
def joined (d : Bool) : Expr :=
  Expr.connected d (Expr.connected d both condition.root) (.field active)

theorem connect_operands (d : Bool) :
    (Builder.extended signatures).connect d operands = .ok (joined d) := by
  have hfirst : (Builder.extended signatures).call (Registry.builtinName (connective d))
      [both, condition.root] .bool = .ok (Expr.connected d both condition.root) :=
    Builder.call_connective rfl rfl
  have hsecond : (Builder.extended signatures).call (Registry.builtinName (connective d))
      [Expr.connected d both condition.root, .field active] .bool = .ok (joined d) :=
    Builder.call_connective rfl rfl
  rw [Builder.connect_eq, Builder.balanced, operands, if_neg (by decide), Builder.joinAll_cons_cons]
  simp only [Builder.joinPairs, hfirst, ok_bind, pure_bind, Builder.joinAll_cons_cons, hsecond,
    Builder.joinAll]
  rfl

end Sample

namespace Builder

/-- In the sample the first operand is true in row 0, the second in the rows 0 and 2, and the third
in the rows 0, 2 and 4. In row 3 all three are null. -/
theorem sample_connects :
    (extended Sample.signatures).conjunction Sample.operands = .ok (Sample.joined false) ∧
    (extended Sample.signatures).disjunction Sample.operands = .ok (Sample.joined true) ∧
    (Sample.joined false).Selects Sample.schema Sample.batch [0] ∧
    (Sample.joined true).Selects Sample.schema Sample.batch [0, 2, 4] ∧
    (∀ row, row ∈ [0] ↔ ∀ a ∈ Sample.operands, row ∈ a.trueRows Sample.batch) ∧
    ∀ row, row ∈ [0, 2, 4] ↔ ∃ a ∈ Sample.operands, row ∈ a.trueRows Sample.batch := by
  have built : ∀ a ∈ Sample.operands, a.Built ∧ a.type = .bool := by
    simp only [Sample.operands, List.forall_mem_cons]
    exact ⟨⟨Sample.built_both, rfl⟩, ⟨Sample.built, rfl⟩, ⟨.field Sample.active, rfl⟩, nofun⟩
  have binds : ∀ d, (Sample.joined d).Binds Sample.schema Sample.batch := fun d =>
    ⟨_, _, (Sample.joined d).fields.map Sample.batch.columnOf, rfl, .byName rfl⟩
  obtain ⟨all, any, hall, hany, h⟩ := connects_extended Sample.signatures (by decide) built
  cases (Sample.connect_operands false).symm.trans hall
  cases (Sample.connect_operands true).symm.trans hany
  obtain ⟨hconj, hdisj⟩ := h Sample.schema Sample.batch
  obtain ⟨connects, hinter⟩ := hconj (binds false)
  obtain ⟨connects', hunion⟩ := hdisj (binds true)
  exact ⟨Sample.connect_operands false, Sample.connect_operands true,
    connects.selects _ (List.mem_cons_self ..), connects'.selects _ (List.mem_cons_self ..), hinter,
    hunion⟩

end Builder

end RowFilter
