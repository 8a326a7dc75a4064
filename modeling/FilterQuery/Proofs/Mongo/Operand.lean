import FilterQuery.Proofs.Config.Origin

/-!
Null in filter documents. The document of a query has the structure of its tree, and a comparison
in it is with null where the tree compares with null, which the query has to ask for. There is one
exception: a double that is not finite becomes null in the document.
-/
namespace FilterQuery

open Query

/-- A double without a JSON form. -/
def Value.NotFinite : Value → Prop
  | .float x => ∀ negative m q, Number.parts x ≠ .finite negative m q
  | _ => False

namespace Mongo

/-- The name of a comparison in a document. -/
def comparisonKey : Operator → String
  | .equal => "$eq"
  | .notEqual => "$ne"
  | .greaterThan => "$gt"
  | .greaterOrEqual => "$gte"
  | .lessThan => "$lt"
  | .lessOrEqual => "$lte"

theorem factory_compare (field : FieldPath) (op : Operator) (value : Value) :
    factory.compare field op value = fieldCondition field (comparisonKey op) (ofValue value) := by
  cases op <;> rfl

theorem ofValue_eq_null_iff (v : Value) : ofValue v = .null ↔ v = .null ∨ v.NotFinite := by
  cases v with
  | float x =>
    rw [ofValue, Value.NotFinite]
    cases Number.parts x <;> simp
  | _ => simp [ofValue, Value.NotFinite]

/-- The document has the structure of the tree, and `P` relates the values that the tree compares
with to the operands in their places. -/
inductive Mirrors (P : Value → Json → Prop) : FilterTree → Json → Prop where
  | all {ts : List FilterTree} {docs : List Json} (h : List.Forall₂ (Mirrors P) ts docs) :
      Mirrors P (.all ts) (.object [("$and", .array docs)])
  | any {ts : List FilterTree} {docs : List Json} (h : List.Forall₂ (Mirrors P) ts docs) :
      Mirrors P (.any ts) (.object [("$or", .array docs)])
  | negate {t : FilterTree} {doc : Json} (h : Mirrors P t doc) :
      Mirrors P (.negate t) (.object [("$nor", .array [doc])])
  | compare (field : FieldPath) (op : Operator) {value : Value} {operand : Json}
      (h : P value operand) :
      Mirrors P (.compare field op value) (fieldCondition field (comparisonKey op) operand)
  | search (field : FieldPath) (mode : SearchMode) (word : String) :
      Mirrors P (.search field mode word) (searching field mode word)

mutual

/-- The document of a tree mirrors it. -/
theorem fold_mirrors {P : Value → Json → Prop} (h : ∀ v, P v (ofValue v)) :
    ∀ t : FilterTree, Mirrors P t (t.fold factory)
  | .all children => .all (foldList_mirrors h children)
  | .any children => .any (foldList_mirrors h children)
  | .negate child => .negate (fold_mirrors h child)
  | .compare field op value => by
    rw [FilterTree.fold, factory_compare]
    exact .compare field op (h value)
  | .search field mode word => .search field mode word

theorem foldList_mirrors {P : Value → Json → Prop} (h : ∀ v, P v (ofValue v)) :
    ∀ ts : List FilterTree, List.Forall₂ (Mirrors P) ts (FilterTree.foldList factory ts)
  | [] => .nil
  | t :: ts => .cons (fold_mirrors h t) (foldList_mirrors h ts)

end

/-- A query that compiles to a tree has a document that mirrors it. An operand is null where the
tree compares with null or with a double that is not finite, and the tree compares with null only
where an operator of the query has a lone minus sign without quotes behind it. -/
theorem document_operands (config : Config) (query : String) {t : FilterTree}
    (ht : Command.outcome config query = .ok (some t)) :
    ∃ doc, (Command.compileWith factory config query).2 = .ok (some doc) ∧
      Mirrors (fun v operand => operand = .null ↔ v = .null ∨ v.NotFinite) t doc ∧
      ∀ field op, FilterTree.compare field op .null ∈ t.postOrder →
        ∃ after width, after <:+ query.toList ∧ Operator.at? after = some (op, width) ∧
          (takeValue (after.drop width)).1 = ⟨nullSign, false⟩ := by
  refine ⟨t.fold factory, ?_, fold_mirrors ofValue_eq_null_iff t, ?_⟩
  · rw [Command.compileWith_fold, ht]
    rfl
  · intro field op hm
    obtain ⟨root, -, hasked⟩ := Command.asked_of_outcome ht
    exact (hasked.compare hm).null

/-- Users without a name and users that are not of age. -/
def sampleMissing : FilterTree :=
  .any [.compare ⟨"name"⟩ .equal .null, .negate (.compare ⟨"age"⟩ .greaterOrEqual (.int 21))]

theorem document_sampleMissing :
    Command.outcome sampleConfig "name: - or !age>=21" = .ok (some sampleMissing) ∧
      (∃ doc, (Command.compileWith factory sampleConfig "name: - or !age>=21").2 =
          .ok (some doc) ∧
        Mirrors (fun v operand => operand = .null ↔ v = .null ∨ v.NotFinite) sampleMissing doc) ∧
      ∃ after width, after <:+ "name: - or !age>=21".toList ∧
        Operator.at? after = some (.equal, width) ∧
        (takeValue (after.drop width)).1 = ⟨nullSign, false⟩ := by
  have ht : Command.outcome sampleConfig "name: - or !age>=21" = .ok (some sampleMissing) := by
    cbv
  obtain ⟨doc, hdoc, hmirrors, hnull⟩ := document_operands sampleConfig "name: - or !age>=21" ht
  have hm : FilterTree.compare ⟨"name"⟩ .equal .null ∈ sampleMissing.postOrder := by
    simp [sampleMissing, FilterTree.postOrder]
  exact ⟨ht, ⟨doc, hdoc, hmirrors⟩, hnull _ _ hm⟩

/-- A configuration, with arrays in place of records, of one entity with a double. -/
def sampleDouble : String := "[[[[\"item\", [[\"x\", \"float\"]]]]], \"item\"]"

def sampleDoubleRoot : Entity := ⟨"item", [⟨"x", .float, none⟩]⟩

def sampleDoubleConfig : Config := ⟨⟨[sampleDoubleRoot]⟩, "item", [], .empty⟩

theorem read_sampleDouble : Config.read sampleDouble = .ok sampleDoubleConfig := by cbv

/-- A query for doubles that are no numbers has the document of one for missing doubles. -/
theorem document_notFinite :
    Config.read sampleDouble = .ok sampleDoubleConfig ∧ ∃ x,
      Command.outcome sampleDoubleConfig "\"x\":\"NaN\"" =
        .ok (some (.compare ⟨"x"⟩ .equal (.float x))) ∧
      (Command.compileWith factory sampleDoubleConfig "\"x\":\"NaN\"").2 =
        .ok (some (fieldCondition ⟨"x"⟩ "$eq" .null)) ∧
      Command.outcome sampleDoubleConfig "x:-" = .ok (some (.compare ⟨"x"⟩ .equal .null)) ∧
      (Command.compileWith factory sampleDoubleConfig "x:-").2 =
        .ok (some (fieldCondition ⟨"x"⟩ "$eq" .null)) := by
  have hread : ∃ x, DataType.float.read "NaN" = .ok (.float x) ∧ Number.parts x = .nan :=
    ⟨_, rfl, by decide⟩
  obtain ⟨x, hx, hp⟩ := hread
  have hr : sampleDoubleConfig.schema.resolve? sampleDoubleRoot ⟨"x"⟩ =
      some ⟨sampleDoubleRoot, ⟨"x", .float, none⟩⟩ := by decide
  have hconverted : converted ⟨sampleDoubleRoot, ⟨"x", .float, none⟩⟩ "NaN" = .float x := by
    rw [converted, hx]
  have hquery {C : Type} (F : Factory C) :
      (Command.compileWith F sampleDoubleConfig "\"x\":\"NaN\"").2 =
        .ok (some (F.eq ⟨"x"⟩ (.float x))) := by
    rw [← hconverted]
    exact compares_of_resolve rfl hr C F "NaN"
  have hnull : ofValue (.float x) = .null := by rw [ofValue, hp]
  refine ⟨read_sampleDouble, x, hquery FilterTree.factory, ?_, by cbv, by cbv⟩
  rw [hquery factory]
  exact congrArg (fun operand => Except.ok (some (fieldCondition ⟨"x"⟩ "$eq" operand))) hnull

end Mongo

end FilterQuery
