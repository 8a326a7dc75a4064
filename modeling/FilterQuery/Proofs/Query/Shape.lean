import FilterQuery.Filter.Tree
import FilterQuery.Proofs.Query.Rules

/-!
The shape of compiled trees. Comparisons and search blocks stand at the leaves, a junction
joins at least two trees, and no list of parts is ever empty.
-/
namespace FilterQuery.Query

/-- One search of a word in every search field. -/
def searchGroup (fields : List SearchField) (mode : SearchField → SearchMode) (word : String) :
    FilterTree :=
  .any (fields.map fun f => .search f.field (mode f) word)

/-- Words searched with the modes of the fields, or one phrase searched with mode equal. -/
inductive SearchBlock (fields : List SearchField) : FilterTree → Prop where
  | words (hf : fields ≠ []) (ws : List String) (hne : ws ≠ [])
      (hw : ∀ w ∈ ws, w ≠ "" ∧ ∀ c ∈ w.toList, Text.isBlank c = false) :
      SearchBlock fields (.all (ws.map (searchGroup fields SearchField.mode)))
  | phrase (hf : fields ≠ []) (text : String) :
      SearchBlock fields (.all [searchGroup fields (fun _ => .equal) text])

inductive Shaped (fields : List SearchField) : FilterTree → Prop where
  | compare (field : FieldPath) (op : Operator) (value : Value) :
      Shaped fields (.compare field op value)
  | negate {t : FilterTree} (h : Shaped fields t) : Shaped fields (.negate t)
  | all {ts : List FilterTree} (hl : 2 ≤ ts.length) (h : ∀ t ∈ ts, Shaped fields t) :
      Shaped fields (.all ts)
  | any {ts : List FilterTree} (hl : 2 ≤ ts.length) (h : ∀ t ∈ ts, Shaped fields t) :
      Shaped fields (.any ts)
  | search {t : FilterTree} (h : SearchBlock fields t) : Shaped fields t

/-- A tree that is no junction of an empty list. -/
def NonemptyJunction : FilterTree → Prop
  | .all ts => ts ≠ []
  | .any ts => ts ≠ []
  | _ => True

def NonemptyCall : Event FilterTree → Prop
  | .built t => NonemptyJunction t
  | .noted _ => True

theorem admitsOwn_nonemptyCall : AdmitsOwn FilterTree.factory NonemptyCall where
  note := fun _ _ => trivial
  search := fun _ _ _ => trivial
  compare := by
    intro field op value
    rw [FilterTree.factory_compare]
    trivial
  negate := fun _ => trivial
  all := fun _ h => h
  any := fun _ h => h

theorem shaped_of_leafConstraint {st : Setting} {t : FilterTree}
    (h : LeafConstraint FilterTree.factory st t) : Shaped st.searchFields t := by
  cases h with
  | comparison h op t =>
    rw [FilterTree.factory_compare]
    exact .compare _ _ _
  | phrase hf text => exact .search (.phrase hf text)
  | words hf ws hne hw => exact .search (.words hf ws hne hw)

theorem preserves_shaped (st : Setting) :
    Preserves FilterTree.factory st (Shaped st.searchFields) where
  leaf := fun _ h => shaped_of_leafConstraint h
  tag := fun _ _ h => shaped_of_leafConstraint (leafConstraint_of_tagged h)
  negate := fun _ h => .negate h
  all := fun _ hl h => .all hl h
  any := fun _ hl h => .any hl h

/-- No junction is ever built of nothing, also on the way to an error, and every compiled tree
has the shape of the grammar. -/
theorem compile_shaped (st : Setting) (query : String) :
    (∀ t ∈ (compile FilterTree.factory st query).built, NonemptyJunction t) ∧
      ∀ t, (compile FilterTree.factory st query).result = .ok (some t) →
        Shaped st.searchFields t := by
  obtain ⟨he, hr⟩ := compile_ensures
    (admitsOwn_nonemptyCall.admits fun _ _ _ _ => trivial) (preserves_shaped st) query
  refine ⟨?_, hr⟩
  intro t ht
  obtain ⟨e, hmem, hbuilt⟩ := List.mem_filterMap.mp ht
  cases e with
  | built c =>
    cases hbuilt
    exact he _ hmem
  | noted n => cases hbuilt

def sampleWords : FilterTree := .all [.any [.search ⟨"name"⟩ .like "bo"]]

def sampleTree : FilterTree :=
  .any [.negate (.compare ⟨"name"⟩ .equal (.string "al")), sampleWords]

theorem compile_sampleTree :
    sampleWords ∈ (compile FilterTree.factory sampleSetting "!name=al or bo").built ∧
      NonemptyJunction sampleWords ∧
      (compile FilterTree.factory sampleSetting "!name=al or bo").result =
        .ok (some sampleTree) ∧
      Shaped sampleSetting.searchFields sampleTree := by
  have hb : (compile FilterTree.factory sampleSetting "!name=al or bo").built =
      [.compare ⟨"name"⟩ .equal (.string "al"),
        .negate (.compare ⟨"name"⟩ .equal (.string "al")), .search ⟨"name"⟩ .like "bo",
        .any [.search ⟨"name"⟩ .like "bo"], sampleWords, sampleTree] := by cbv
  have hm : sampleWords ∈ (compile FilterTree.factory sampleSetting "!name=al or bo").built := by
    simp [hb]
  have hr : (compile FilterTree.factory sampleSetting "!name=al or bo").result =
      .ok (some sampleTree) := by cbv
  have h := compile_shaped sampleSetting "!name=al or bo"
  exact ⟨hm, h.1 sampleWords hm, hr, h.2 sampleTree hr⟩

end FilterQuery.Query
