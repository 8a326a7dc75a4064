import FilterQuery.Proofs.Query.Translation

/-!
The order of building. A compilation that succeeds has built the nodes of its tree and nothing
else: each node once, after the nodes below it, from the left.
-/
namespace FilterQuery

namespace FilterTree

mutual

/-- The nodes of a tree from the left, each after the nodes below it. -/
def postOrder : FilterTree → List FilterTree
  | .all children => postOrderList children ++ [.all children]
  | .any children => postOrderList children ++ [.any children]
  | .negate child => postOrder child ++ [.negate child]
  | .compare field op value => [.compare field op value]
  | .search field mode word => [.search field mode word]

def postOrderList : List FilterTree → List FilterTree
  | [] => []
  | t :: ts => postOrder t ++ postOrderList ts

end

@[simp] theorem postOrderList_nil : postOrderList [] = [] := rfl

@[simp] theorem postOrderList_cons (t : FilterTree) (ts : List FilterTree) :
    postOrderList (t :: ts) = t.postOrder ++ postOrderList ts := rfl

@[simp] theorem postOrderList_append (ts us : List FilterTree) :
    postOrderList (ts ++ us) = postOrderList ts ++ postOrderList us := by
  induction ts with
  | nil => rfl
  | cons t ts ih => simp [ih]

theorem mem_postOrderList {n : FilterTree} {ts : List FilterTree} :
    n ∈ postOrderList ts ↔ ∃ t ∈ ts, n ∈ t.postOrder := by
  induction ts with
  | nil => simp
  | cons t ts ih => simp [ih]

theorem postOrderList_map {α : Type} (f : α → FilterTree) (l : List α) :
    postOrderList (l.map f) = l.flatMap fun a => (f a).postOrder := by
  induction l with
  | nil => rfl
  | cons a l ih => simp [ih]

/-- A comparison or a search word. -/
def isLeaf : FilterTree → Bool
  | .compare _ _ _ => true
  | .search _ _ _ => true
  | _ => false

/-- A leaf of a junction is a leaf of one of its parts. -/
theorem exists_of_mem_junction {join : List FilterTree → FilterTree} {ts : List FilterTree}
    (hj : (join ts).postOrder = postOrderList ts ++ [join ts]) (hl : (join ts).isLeaf = false)
    {n : FilterTree} (hn : n.isLeaf = true) (hm : n ∈ (join ts).postOrder) :
    ∃ t ∈ ts, n ∈ t.postOrder := by
  rw [hj, List.mem_append, List.mem_singleton, mem_postOrderList] at hm
  rcases hm with hm | rfl
  · exact hm
  · rw [hl] at hn
    cases hn

mutual

theorem length_filter_postOrder : ∀ t : FilterTree,
    (t.postOrder.filter isLeaf).length = t.leafCount
  | .all children => by
    simpa [postOrder, leafCount, isLeaf] using length_filter_postOrderList children
  | .any children => by
    simpa [postOrder, leafCount, isLeaf] using length_filter_postOrderList children
  | .negate child => by simpa [postOrder, leafCount, isLeaf] using length_filter_postOrder child
  | .compare _ _ _ => rfl
  | .search _ _ _ => rfl

theorem length_filter_postOrderList : ∀ ts : List FilterTree,
    ((postOrderList ts).filter isLeaf).length = leafCountList ts
  | [] => rfl
  | t :: ts => by
    rw [postOrderList_cons, List.filter_append, List.length_append, length_filter_postOrder t,
      length_filter_postOrderList ts]
    rfl

end

end FilterTree

namespace Query

open Build FilterTree

/-- The constraint of an event that built one. -/
def Event.built? {C : Type} : Event C → Option C
  | .built c => some c
  | .noted _ => none

theorem Compilation.built_eq {C : Type} (c : Compilation C) :
    c.built = c.events.filterMap Event.built? := rfl

variable {α β : Type}

namespace Build

/-- All that a computation built, in order. -/
def built {C : Type} (x : Build C α) : List C := x.events.filterMap Event.built?

theorem built_bind {C : Type} {x : Build C α} {a : α} (h : x.result = .ok a)
    (f : α → Build C β) : (x >>= f).built = x.built ++ (f a).built := by
  rw [bind_ok h]
  exact List.filterMap_append

/-- With `before` built already, a computation that returns `a` has built `nodes a` in all. -/
def Builds (before : List FilterTree) (nodes : α → List FilterTree) (x : Build FilterTree α) :
    Prop :=
  ∀ a, x.result = .ok a → before ++ x.built = nodes a

variable {before : List FilterTree} {nodes : α → List FilterTree}

theorem builds_pure {a : α} (h : before = nodes a) :
    (pure a : Build FilterTree α).Builds before nodes := by
  intro b hb
  cases hb
  simpa [built] using h

theorem builds_make {t : FilterTree} (h : before ++ [t] = t.postOrder) :
    (make t).Builds before postOrder := by
  intro u hu
  cases hu
  exact h

theorem builds_note (before : List FilterTree) (n : Note) :
    (note n : Build FilterTree Unit).Builds before fun _ => before := by
  intro u _
  simp [built, Event.built?]

theorem builds_stop (field : String) (unread : List Char) :
    (stop field unread : Build FilterTree α).Builds before nodes := by
  intro a ha
  cases ha

theorem Builds.bind {x : Build FilterTree α} {f : α → Build FilterTree β}
    {nodes' : β → List FilterTree} (hx : x.Builds before nodes)
    (hf : ∀ a, (f a).Builds (nodes a) nodes') : (x >>= f).Builds before nodes' := by
  intro b hb
  obtain ⟨a, ha, hb⟩ := bind_result_eq_ok.mp hb
  rw [← hf a b hb, ← hx a ha, built_bind ha, List.append_assoc]

/-- What was built before stays in front. -/
theorem Builds.after {x : Build FilterTree α} (h : x.Builds [] nodes) (before : List FilterTree) :
    x.Builds before fun a => before ++ nodes a := by
  intro a ha
  exact congrArg (before ++ ·) (h a ha)

theorem builds_mapM {f : α → Build FilterTree FilterTree}
    (h : ∀ a, (f a).Builds [] postOrder) (l : List α) :
    (l.mapM f).Builds [] postOrderList := by
  induction l with
  | nil => exact builds_pure rfl
  | cons a l ih =>
    rw [List.mapM_cons]
    refine (h a).bind fun t => (ih.after _).bind fun ts => ?_
    exact builds_pure rfl

end Build

/-- The nodes of an optional tree. -/
def someNodes (t : Option FilterTree) : List FilterTree := postOrderList t.toList

variable (st : Setting)

theorem convert_builds (r : Resolved) (raw : String) :
    (convert r raw : Build FilterTree Value).Builds [] fun _ => [] := by
  rw [convert]
  cases r.property.type.read raw with
  | ok v => exact builds_pure rfl
  | error e => exact (builds_note [] _).bind fun _ => builds_pure rfl

theorem convertTerm_builds (r : Resolved) (t : Term) :
    (convertTerm r t : Build FilterTree Value).Builds [] fun _ => [] := by
  rw [convertTerm]
  split
  · exact builds_pure rfl
  · exact convert_builds r t.text

theorem some_builds {x : Build FilterTree FilterTree} {before : List FilterTree}
    (hx : x.Builds before postOrder) : (some <$> x).Builds before someNodes :=
  hx.bind fun t => builds_pure (by simp [someNodes])

/-- A junction is built after its parts. -/
theorem combine_builds {join : List FilterTree → FilterTree}
    (hj : ∀ ts, (join ts).postOrder = postOrderList ts ++ [join ts]) (ts : List FilterTree) :
    (combine join ts).Builds (postOrderList ts) someNodes := by
  match ts with
  | [] => exact builds_pure rfl
  | [t] => exact builds_pure rfl
  | t :: u :: ts => exact some_builds (builds_make (hj _).symm)

theorem searchWord_builds (mode : Option SearchMode) (word : String) :
    (searchWord factory st mode word).Builds [] postOrder := by
  have hf (f : SearchField) :
      (make (factory.search f.field (mode.getD f.mode) word)).Builds [] postOrder :=
    builds_make rfl
  exact (builds_mapM hf st.searchFields).bind fun ts => builds_make rfl

theorem searchTerm_builds (t : Term) : (searchTerm factory st t).Builds [] someNodes := by
  rw [searchTerm]
  split
  · exact (builds_note [] _).bind fun _ => builds_pure rfl
  · split
    · refine (searchWord_builds st _ t.text).bind fun phrase => ?_
      have hp : phrase.postOrder = postOrderList [phrase] := by simp
      rw [hp]
      exact some_builds (builds_make rfl)
    · split
      · exact builds_pure rfl
      · exact (builds_mapM (fun w => searchWord_builds st none (String.ofList w)) _).bind
          fun ts => some_builds (builds_make rfl)

theorem compare_builds (field : FieldPath) (op : Operator) (value : Value) :
    (make (factory.compare field op value)).Builds [] postOrder := by
  rw [factory_compare]
  exact builds_make rfl

theorem tagConstraint_builds (field : FieldPath) (value : String) :
    (tagConstraint factory st field value).Builds [] someNodes := by
  rw [tagConstraint]
  cases st.schema.resolve? st.root field with
  | none => exact (builds_note [] _).bind fun _ => builds_pure rfl
  | some r =>
    exact (convert_builds r value).bind fun v => some_builds (compare_builds field .equal v)

theorem compileTag_builds (payload : List Char) :
    (compileTag factory st payload).Builds [] someNodes := by
  rw [compileTag]
  split
  · split
    · exact tagConstraint_builds st _ _
    · exact (builds_note [] _).bind fun _ => builds_pure rfl
  · exact (builds_note [] _).bind fun _ => builds_pure rfl

/-- A constraint, or the constraints of a list, beside the unread text. -/
theorem builds_beside {x : Build FilterTree α} {before : List FilterTree}
    {nodes : α → List FilterTree} (hx : x.Builds before nodes) (rest : List Char) :
    (do let a ← x; pure (a, rest) : Build FilterTree (α × List Char)).Builds before
      fun r => nodes r.1 :=
  hx.bind fun _ => builds_pure rfl

theorem compileOperation_builds (t : Term) (skipped : Bool) (cs : List Char) :
    (compileOperation factory st t skipped cs).Builds [] fun r => someNodes r.1 := by
  rw [compileOperation]
  cases st.schema.resolve? st.root ⟨t.text⟩ with
  | none =>
    exact (builds_note [] _).bind fun _ => builds_beside (searchTerm_builds st _) _
  | some r =>
    simp only [compileComparison]
    cases Operator.at? cs with
    | none => exact builds_stop t.text cs
    | some o =>
      refine (convertTerm_builds r _).bind fun v => ?_
      exact (compare_builds ⟨t.text⟩ o.1 v).bind fun c => builds_pure (by simp [someNodes])

theorem compileTerm_builds (cs : List Char) :
    (compileTerm factory st cs).Builds [] fun r => someNodes r.1 := by
  rw [compileTerm]
  simp only
  split
  · exact builds_pure rfl
  · split
    · exact compileOperation_builds st _ _ _
    · exact builds_beside (searchTerm_builds st _) _

theorem builds_combine {x : Build FilterTree (List FilterTree × List Char)}
    (hx : x.Builds [] fun r => postOrderList r.1) {join : List FilterTree → FilterTree}
    (hj : ∀ ts, (join ts).postOrder = postOrderList ts ++ [join ts]) :
    (do let (parts, rest) ← x; let c ← combine join parts; pure (c, rest) :
      Build FilterTree (Option FilterTree × List Char)).Builds [] fun r => someNodes r.1 :=
  hx.bind fun r => builds_beside (combine_builds hj r.1) r.2

theorem builds_cons {x : Build FilterTree (List FilterTree × List Char)}
    (hx : x.Builds [] fun r => postOrderList r.1) (part : Option FilterTree) :
    (do let (parts, rest) ← x; pure (part.toList ++ parts, rest) :
      Build FilterTree (List FilterTree × List Char)).Builds (someNodes part)
      fun r => postOrderList r.1 :=
  (hx.after _).bind fun r => builds_pure (postOrderList_append part.toList r.1).symm

theorem anyParts_builds {cs : List Char} (hc : ¬atClose cs = true)
    (hall : (compileAll factory st cs).Builds [] fun r => someNodes r.1)
    (hn : ∀ rest : List Char, (rest.drop 2).length < cs.length →
      (anyParts factory st (rest.drop 2)).Builds [] fun r => postOrderList r.1) :
    (anyParts factory st cs).Builds [] fun r => postOrderList r.1 := by
  rw [anyParts, if_neg hc]
  refine hall.bind ?_
  rintro ⟨part, rest⟩
  simp only
  split
  · split
    · next hl => exact builds_cons (hn rest hl) part
    · exact builds_pure rfl
  · exact builds_pure rfl

theorem allParts_builds {cs : List Char} (hc : ¬atClose cs = true)
    (hunit : (compileUnit factory st cs).Builds [] fun r => someNodes r.1)
    (hn : ∀ rest : List Char, (skipAnd (Text.skipBlanks rest)).length < cs.length →
      (allParts factory st (skipAnd (Text.skipBlanks rest))).Builds []
        fun r => postOrderList r.1) :
    (allParts factory st cs).Builds [] fun r => postOrderList r.1 := by
  rw [allParts, if_neg hc]
  refine hunit.bind ?_
  rintro ⟨part, rest⟩
  simp only
  split
  · exact builds_pure rfl
  · split
    · next hl => exact builds_cons (hn rest hl) part
    · exact builds_pure rfl

theorem negation_builds {cs rest : List Char} (hs : Text.skipBlanks cs = '!' :: rest)
    (hunit : (compileUnit factory st rest).Builds [] fun r => someNodes r.1) :
    (compileUnit factory st cs).Builds [] fun r => someNodes r.1 := by
  rw [compileUnit_not hs]
  refine hunit.bind ?_
  rintro ⟨_ | c, after⟩
  · exact builds_pure rfl
  · have hm : (make (factory.negate c)).Builds (someNodes (some c)) postOrder :=
      builds_make (by simp [someNodes, postOrder, factory])
    exact hm.bind fun t => builds_pure (by simp [someNodes])

/-- Every rule that comes back has built the nodes of what it returns. -/
theorem rules_build :
    (∀ cs, (compileAny factory st cs).Builds [] fun r => someNodes r.1) ∧
      (∀ cs, (anyParts factory st cs).Builds [] fun r => postOrderList r.1) ∧
      (∀ cs, (compileAll factory st cs).Builds [] fun r => someNodes r.1) ∧
      (∀ cs, (allParts factory st cs).Builds [] fun r => postOrderList r.1) ∧
      ∀ cs, (compileUnit factory st cs).Builds [] fun r => someNodes r.1 := by
  refine compileAny.mutual_induct _ _ _ _ _ ?_ ?_ ?_ ?_ ?_ ?_ ?_ ?_ ?_ ?_
  · intro cs ih
    rw [compileAny]
    exact builds_combine ih fun _ => rfl
  · intro cs hc
    rw [anyParts, if_pos hc]
    exact builds_pure rfl
  · intro cs hc ih₁ ih₂
    exact anyParts_builds st hc ih₁ ih₂
  · intro cs ih
    rw [compileAll]
    exact builds_combine ih fun _ => rfl
  · intro cs hc
    rw [allParts, if_pos hc]
    exact builds_pure rfl
  · intro cs hc ih₁ ih₂
    exact allParts_builds st hc ih₁ ih₂
  · intro cs rest hs ih
    exact negation_builds st hs ih
  · intro cs rest hs ih
    rw [compileUnit_group hs]
    exact ih.bind fun r => builds_pure rfl
  · intro cs rest hs payload after hp
    rw [compileUnit_tag hs]
    exact builds_beside (compileTag_builds st _) _
  · intro cs h₁ h₂ h₃
    rw [compileUnit_term h₁ h₂ h₃]
    exact compileTerm_builds st _

/-- The calls for a word: one search for each field, in order, and their alternative. -/
def wordCalls (word : String) : List FilterTree :=
  (st.searchFields.map fun f => .search f.field f.mode word) ++ [wordGroup factory st none word]

theorem wordGroup_postOrder (word : String) :
    (wordGroup factory st none word).postOrder = wordCalls st word := by
  have hf (fs : List SearchField) :
      postOrderList (fs.map fun f => .search f.field f.mode word) =
        fs.map fun f => .search f.field f.mode word := by
    induction fs with
    | nil => rfl
    | cons f fs ih => exact congrArg (FilterTree.search f.field f.mode word :: ·) ih
  exact congrArg (· ++ [wordGroup factory st none word]) (hf st.searchFields)

/-- The calls for a search: word after word, and their conjunction. -/
def searchCalls (words : List String) : List FilterTree :=
  words.flatMap (wordCalls st) ++ [.all (words.map (wordGroup factory st none))]

/-- A search for the words of a text calls for one word after the other. -/
theorem searchTerm_built {text : String} (hf : st.searchFields ≠ [])
    (hw : Text.words text.toList ≠ []) :
    (searchTerm factory st ⟨text, false⟩).built =
      searchCalls st ((Text.words text.toList).map String.ofList) := by
  have hr := (searchTerm_yields st (admitsOwn_true factory) ⟨text, false⟩).result
  have hb := searchTerm_builds st ⟨text, false⟩ _ hr
  have hblock : termBlock factory st ⟨text, false⟩ =
      some (.all (((Text.words text.toList).map String.ofList).map
        (wordGroup factory st none))) := by
    simp [termBlock, wordsBlock, hf, hw, factory]
  rw [List.nil_append, hblock] at hb
  rw [hb, searchCalls]
  simp [someNodes, postOrder, postOrderList_map, wordGroup_postOrder, List.flatMap_map]

theorem compile_built_eq_postOrder {query : String} {c : Option FilterTree}
    (h : (compile factory st query).result = .ok c) :
    (compile factory st query).built = someNodes c := by
  rw [Compilation.built_eq]
  rw [compile] at h ⊢
  cases hr : (compileAny factory st query.toList).result with
  | error s => simp [hr] at h
  | ok r =>
    simp only [hr, Except.ok.injEq] at h
    subst h
    exact (rules_build st).1 query.toList r hr

theorem Compilation.map_built {C D : Type} (h : C → D) (c : Compilation C) :
    (c.map h).built = c.built.map h := by
  rw [built_eq, built_eq, Compilation.map, List.filterMap_map, List.map_filterMap]
  congr 1
  funext e
  cases e <;> rfl

/-- A compilation that finds nothing has built nothing. One that finds a tree has built the nodes
of the tree in post-order, whatever the factory, so it made as many comparisons and searches as
the tree has. -/
theorem compile_trace (st : Setting) (query : String) :
    (∀ {C : Type} (F : Factory C), (compile F st query).result = .ok none →
      (compile F st query).built = []) ∧
    (∀ t, (compile factory st query).result = .ok (some t) →
      (compile factory st query).built = t.postOrder ∧
      ((compile factory st query).built.filter isLeaf).length = t.leafCount ∧
      ∀ {C : Type} (F : Factory C), (compile F st query).result = .ok (some (t.fold F)) ∧
        (compile F st query).built = t.postOrder.map (FilterTree.fold F)) ∧
    ∀ text : String, st.searchFields ≠ [] → Text.words text.toList ≠ [] →
      (searchTerm factory st ⟨text, false⟩).built =
        searchCalls st ((Text.words text.toList).map String.ofList) := by
  have hfold {C : Type} (F : Factory C) :
      compile F st query = (compile factory st query).map (FilterTree.fold F) :=
    compile_map (fold_hom F) st query
  refine ⟨?_, ?_, fun text hf hw => searchTerm_built st hf hw⟩
  · intro C F h
    rw [hfold F] at h ⊢
    rw [Compilation.map_built]
    cases hr : (compile factory st query).result with
    | error e => simp [Compilation.map, hr, Except.map] at h
    | ok c =>
      have hc : c = none := by simpa [Compilation.map, hr, Except.map] using h
      rw [compile_built_eq_postOrder st hr, hc]
      rfl
  · intro t h
    have hb : (compile factory st query).built = t.postOrder := by
      simpa [someNodes] using compile_built_eq_postOrder st h
    refine ⟨hb, by rw [hb, length_filter_postOrder], fun F => ?_⟩
    rw [hfold F, Compilation.map_built, hb]
    exact ⟨by rw [Compilation.map, h]; rfl, rfl⟩

theorem compile_sampleTrace :
    (compile factory sampleSetting "! ( )").built = [] ∧
      (compile factory sampleSetting "!name=al bo").built =
        [.compare ⟨"name"⟩ .equal (.string "al"),
          .negate (.compare ⟨"name"⟩ .equal (.string "al")), .search ⟨"name"⟩ .like "bo",
          .any [.search ⟨"name"⟩ .like "bo"], .all [.any [.search ⟨"name"⟩ .like "bo"]],
          .all [.negate (.compare ⟨"name"⟩ .equal (.string "al")),
            .all [.any [.search ⟨"name"⟩ .like "bo"]]]] ∧
      (searchTerm factory sampleSetting ⟨"bo al", false⟩).built =
        searchCalls sampleSetting ["bo", "al"] := by
  have hnone : (compile factory sampleSetting "! ( )").result = .ok none := by cbv
  have hsome : (compile factory sampleSetting "!name=al bo").result =
      .ok (some (.all [.negate (.compare ⟨"name"⟩ .equal (.string "al")),
        .all [.any [.search ⟨"name"⟩ .like "bo"]]])) := by cbv
  have hwords : Text.words "bo al".toList = [['b', 'o'], ['a', 'l']] := by cbv
  have h := compile_trace sampleSetting "! ( )"
  exact ⟨h.1 factory hnone, ((compile_trace sampleSetting "!name=al bo").2.1 _ hsome).1,
    h.2.2 "bo al" (by decide) (by rw [hwords]; simp)⟩

end Query
end FilterQuery
