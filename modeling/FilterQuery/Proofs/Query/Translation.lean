import FilterQuery.Command
import FilterQuery.Proofs.Query.Rules

/-!
Compilations for different factories. A map between constraints that respects the operations
of two factories carries every compilation with the one to the compilation with the other,
event by event. Folding is such a map, so every backend builds what the compiled tree says.
-/
namespace FilterQuery

variable {C D : Type}

/-- A map that carries the operations of one factory to those of another. -/
structure Factory.Hom (F : Factory C) (G : Factory D) (h : C → D) : Prop where
  all : ∀ cs, h (F.all cs) = G.all (cs.map h)
  any : ∀ cs, h (F.any cs) = G.any (cs.map h)
  negate : ∀ c, h (F.negate c) = G.negate (h c)
  compare : ∀ field op value, h (F.compare field op value) = G.compare field op value
  search : ∀ field mode word, h (F.search field mode word) = G.search field mode word

theorem FilterTree.fold_hom (F : Factory C) :
    Factory.Hom FilterTree.factory F (FilterTree.fold F) where
  all := by
    intro ts
    show F.all (foldList F ts) = F.all (ts.map (fold F))
    rw [foldList_eq_map]
  any := by
    intro ts
    show F.any (foldList F ts) = F.any (ts.map (fold F))
    rw [foldList_eq_map]
  negate := fun _ => rfl
  compare := by
    intro field op value
    rw [factory_compare]
    rfl
  search := fun _ _ _ => rfl

namespace Query

open Build

variable {α α' β β' : Type} {h : C → D}

def Event.map (h : C → D) : Event C → Event D
  | .built c => .built (h c)
  | .noted n => .noted n

namespace Build

/-- Translates every constraint that is built, and what comes back. -/
def translate (h : C → D) (g : α → β) (x : Build C α) : Build D β :=
  ⟨x.events.map (Event.map h), x.result.map g⟩

theorem translate_pure {g : α → β} (a : α) :
    (pure a : Build C α).translate h g = pure (g a) := rfl

theorem translate_make (c : C) : (make c).translate h h = make (h c) := rfl

theorem translate_bind {x : Build C α} {f : α → Build C β} {k : α → α'} {g : β → β'}
    {q : α' → Build D β'} (hf : ∀ a, (f a).translate h g = q (k a)) :
    (x >>= f).translate h g = x.translate h k >>= q := by
  cases hx : x.result with
  | error s =>
    have hy : (x.translate h k).result = .error s := by rw [translate, hx]; rfl
    rw [bind_error hx, bind_error hy]
    rfl
  | ok a =>
    have hy : (x.translate h k).result = .ok (k a) := by rw [translate, hx]; rfl
    rw [bind_ok hx, bind_ok hy, ← hf a]
    simp [translate]

theorem translate_map {x : Build C α} {f : α → β} {k : α → α'} {g : β → β'} {q : α' → β'}
    (hf : ∀ a, g (f a) = q (k a)) :
    (f <$> x).translate h g = q <$> x.translate h k :=
  translate_bind fun a => congrArg pure (hf a)

theorem translate_mapM {f : α → Build C β} {k : β → β'} {q : α → Build D β'}
    (hf : ∀ a, (f a).translate h k = q a) (l : List α) :
    (l.mapM f).translate h (List.map k) = l.mapM q := by
  induction l with
  | nil => rfl
  | cons a l ih =>
    rw [List.mapM_cons, List.mapM_cons, ← ih, ← hf a]
    exact translate_bind fun b => translate_bind fun bs => rfl

end Build

variable {F : Factory C} {G : Factory D} (hom : Factory.Hom F G h) (st : Setting)

theorem convert_translate (r : Resolved) (raw : String) :
    (convert r raw : Build C Value).translate h id = convert r raw := by
  rw [convert, convert]
  cases r.property.type.read raw with
  | ok v => rfl
  | error e => exact translate_bind fun _ => rfl

theorem convertTerm_translate (r : Resolved) (t : Term) :
    (convertTerm r t : Build C Value).translate h id = convertTerm r t := by
  rw [convertTerm, convertTerm]
  split
  · rfl
  · exact convert_translate r t.text

theorem combine_translate {join : List C → C} {join' : List D → D}
    (hj : ∀ cs, h (join cs) = join' (cs.map h)) (cs : List C) :
    (combine join cs).translate h (Option.map h) = combine join' (cs.map h) := by
  match cs with
  | [] => rfl
  | [c] => rfl
  | c :: d :: cs =>
    have hm := translate_map (x := make (join (c :: d :: cs))) (f := some) (k := h) (h := h)
      (g := Option.map h) (q := some) fun _ => rfl
    rw [translate_make, hj] at hm
    exact hm

include hom

theorem searchWord_translate (mode : Option SearchMode) (word : String) :
    (searchWord F st mode word).translate h h = searchWord G st mode word := by
  have hm := translate_mapM (h := h) (k := h)
    (f := fun f : SearchField => make (F.search f.field (mode.getD f.mode) word))
    (q := fun f => make (G.search f.field (mode.getD f.mode) word))
    (fun f => by rw [translate_make, hom.search]) st.searchFields
  rw [searchWord, searchWord, ← hm]
  exact translate_bind fun cs => by rw [translate_make, hom.any]

theorem searchTerm_translate (t : Term) :
    (searchTerm F st t).translate h (Option.map h) = searchTerm G st t := by
  have hall (cs : List C) : (some <$> make (F.all cs)).translate h (Option.map h) =
      some <$> make (G.all (cs.map h)) := by
    rw [← hom.all, ← translate_make]
    exact translate_map fun _ => rfl
  rw [searchTerm, searchTerm]
  split
  · exact translate_bind fun _ => rfl
  · split
    · rw [← searchWord_translate hom]
      exact translate_bind fun c => hall [c]
    · split
      · rfl
      · rw [← translate_mapM (fun w => searchWord_translate hom st none (String.ofList w))]
        exact translate_bind fun cs => hall cs

theorem tagConstraint_translate (field : FieldPath) (value : String) :
    (tagConstraint F st field value).translate h (Option.map h) =
      tagConstraint G st field value := by
  rw [tagConstraint, tagConstraint]
  cases st.schema.resolve? st.root field with
  | none => exact translate_bind fun _ => rfl
  | some r =>
    have heq (v : Value) : (some <$> make (F.eq field v)).translate h (Option.map h) =
        some <$> make (G.eq field v) := by
      have hc : h (F.eq field v) = G.eq field v := hom.compare field .equal v
      rw [← hc, ← translate_make]
      exact translate_map fun _ => rfl
    simp only
    rw [← convert_translate (C := C) (h := h) r value]
    exact translate_bind heq

theorem compileTag_translate (payload : List Char) :
    (compileTag F st payload).translate h (Option.map h) = compileTag G st payload := by
  rw [compileTag, compileTag]
  split
  · split
    · exact tagConstraint_translate hom st _ _
    · exact translate_bind fun _ => rfl
  · exact translate_bind fun _ => rfl

/-- Translates a constraint and keeps the text after it. -/
def carry (h : C → D) (r : Option C × List Char) : Option D × List Char := (r.1.map h, r.2)

/-- Translates a list of parts and keeps the text after it. -/
def carryParts (h : C → D) (r : List C × List Char) : List D × List Char := (r.1.map h, r.2)

omit hom in
/-- A constraint put beside the text after it. -/
theorem translate_beside {x : Build C (Option C)} {y : Build D (Option D)} (rest : List Char)
    (hx : x.translate h (Option.map h) = y) :
    (do let c ← x; pure (c, rest)).translate h (carry h) = (do let c ← y; pure (c, rest)) := by
  rw [← hx]
  exact translate_bind fun _ => rfl

omit hom in
theorem translate_parts (part : Option C) (rest : List Char) :
    (pure (part.toList, rest) : Build C _).translate h (carryParts h) =
      pure ((part.map h).toList, rest) := by
  rw [translate_pure, carryParts]
  cases part <;> rfl

omit hom in
/-- A part put in front of those that follow it. -/
theorem translate_cons {x : Build C (List C × List Char)} {y : Build D (List D × List Char)}
    (part : Option C) (hx : x.translate h (carryParts h) = y) :
    (do let (parts, rest) ← x; pure (part.toList ++ parts, rest)).translate h (carryParts h) =
      (do let (parts, rest) ← y; pure ((part.map h).toList ++ parts, rest)) := by
  rw [← hx]
  refine translate_bind ?_
  rintro ⟨parts, rest⟩
  rw [translate_pure, carryParts, List.map_append]
  cases part <;> rfl

omit hom in
/-- A list of parts combined into one constraint. -/
theorem translate_combine {x : Build C (List C × List Char)} {y : Build D (List D × List Char)}
    {join : List C → C} {join' : List D → D} (hj : ∀ cs, h (join cs) = join' (cs.map h))
    (hx : x.translate h (carryParts h) = y) :
    (do let (parts, rest) ← x; let c ← combine join parts; pure (c, rest)).translate h (carry h) =
      (do let (parts, rest) ← y; let c ← combine join' parts; pure (c, rest)) := by
  rw [← hx]
  refine translate_bind ?_
  rintro ⟨parts, rest⟩
  exact translate_beside rest (combine_translate hj parts)

theorem compileComparison_translate (field : String) (r : Resolved) (cs : List Char) :
    (compileComparison F field r cs).translate h (carry h) = compileComparison G field r cs := by
  rw [compileComparison, compileComparison]
  cases Operator.at? cs with
  | none => rfl
  | some o =>
    simp only
    rw [← convertTerm_translate (C := C) (h := h) r]
    refine translate_bind fun v => ?_
    rw [id, ← hom.compare, ← translate_make]
    exact translate_bind fun _ => rfl

theorem compileOperation_translate (t : Term) (skipped : Bool) (cs : List Char) :
    (compileOperation F st t skipped cs).translate h (carry h) =
      compileOperation G st t skipped cs := by
  rw [compileOperation, compileOperation]
  cases st.schema.resolve? st.root ⟨t.text⟩ with
  | some r => exact compileComparison_translate hom t.text r cs
  | none =>
    refine translate_bind (x := note _) (k := id) fun _ => ?_
    exact translate_beside _ (searchTerm_translate hom st _)

theorem compileTerm_translate (cs : List Char) :
    (compileTerm F st cs).translate h (carry h) = compileTerm G st cs := by
  rw [compileTerm, compileTerm]
  simp only
  split
  · rfl
  · split
    · exact compileOperation_translate hom st _ _ _
    · exact translate_beside _ (searchTerm_translate hom st _)

omit hom in
theorem anyParts_translate {cs : List Char} (hc : ¬atClose cs = true)
    (hall : (compileAll F st cs).translate h (carry h) = compileAll G st cs)
    (hn : ∀ rest : List Char, (rest.drop 2).length < cs.length →
      (anyParts F st (rest.drop 2)).translate h (carryParts h) = anyParts G st (rest.drop 2)) :
    (anyParts F st cs).translate h (carryParts h) = anyParts G st cs := by
  rw [anyParts, anyParts, if_neg hc, if_neg hc, ← hall]
  refine translate_bind ?_
  rintro ⟨part, rest⟩
  have hpart := translate_parts (h := h) part rest
  by_cases ho : atOr rest = true
  · by_cases hl : (rest.drop 2).length < cs.length
    · have hparts := translate_cons part (hn rest hl)
      simpa only [carry, ho, hl, ↓reduceIte, ↓reduceDIte] using hparts
    · simpa only [carry, ho, hl, ↓reduceIte, ↓reduceDIte] using hpart
  · simpa only [carry, ho, Bool.false_eq_true, ↓reduceIte] using hpart

omit hom in
theorem allParts_translate {cs : List Char} (hc : ¬atClose cs = true)
    (hunit : (compileUnit F st cs).translate h (carry h) = compileUnit G st cs)
    (hn : ∀ rest : List Char, (skipAnd (Text.skipBlanks rest)).length < cs.length →
      (allParts F st (skipAnd (Text.skipBlanks rest))).translate h (carryParts h) =
        allParts G st (skipAnd (Text.skipBlanks rest))) :
    (allParts F st cs).translate h (carryParts h) = allParts G st cs := by
  rw [allParts, allParts, if_neg hc, if_neg hc, ← hunit]
  refine translate_bind ?_
  rintro ⟨part, rest⟩
  have hpart := translate_parts (h := h) part (Text.skipBlanks rest)
  by_cases ho : atOr (Text.skipBlanks rest) = true
  · simpa only [carry, ho, ↓reduceIte] using hpart
  · by_cases hl : (skipAnd (Text.skipBlanks rest)).length < cs.length
    · have hparts := translate_cons part (hn rest hl)
      simpa only [carry, ho, hl, Bool.false_eq_true, ↓reduceIte, ↓reduceDIte] using hparts
    · simpa only [carry, ho, hl, Bool.false_eq_true, ↓reduceIte, ↓reduceDIte] using hpart

theorem negation_translate {cs rest : List Char} (hs : Text.skipBlanks cs = '!' :: rest)
    (hunit : (compileUnit F st rest).translate h (carry h) = compileUnit G st rest) :
    (compileUnit F st cs).translate h (carry h) = compileUnit G st cs := by
  rw [compileUnit_not hs, compileUnit_not hs, ← hunit]
  refine translate_bind ?_
  rintro ⟨c, after⟩
  cases c with
  | none => rfl
  | some c =>
    simp only [carry, Option.map_some]
    rw [← hom.negate, ← translate_make]
    exact translate_bind fun _ => rfl

/-- Every rule is carried from one factory to the other. -/
theorem rules_translate :
    (∀ cs, (compileAny F st cs).translate h (carry h) = compileAny G st cs) ∧
      (∀ cs, (anyParts F st cs).translate h (carryParts h) = anyParts G st cs) ∧
      (∀ cs, (compileAll F st cs).translate h (carry h) = compileAll G st cs) ∧
      (∀ cs, (allParts F st cs).translate h (carryParts h) = allParts G st cs) ∧
      ∀ cs, (compileUnit F st cs).translate h (carry h) = compileUnit G st cs := by
  refine compileAny.mutual_induct _ _ _ _ _ ?_ ?_ ?_ ?_ ?_ ?_ ?_ ?_ ?_ ?_
  · intro cs ih
    rw [compileAny, compileAny]
    exact translate_combine hom.any ih
  · intro cs hc
    rw [anyParts, anyParts, if_pos hc, if_pos hc]
    rfl
  · intro cs hc ih₁ ih₂
    exact anyParts_translate st hc ih₁ ih₂
  · intro cs ih
    rw [compileAll, compileAll]
    exact translate_combine hom.all ih
  · intro cs hc
    rw [allParts, allParts, if_pos hc, if_pos hc]
    rfl
  · intro cs hc ih₁ ih₂
    exact allParts_translate st hc ih₁ ih₂
  · intro cs rest hs ih
    exact negation_translate hom st hs ih
  · intro cs rest hs ih
    rw [compileUnit_group hs, compileUnit_group hs, ← ih]
    exact translate_bind fun _ => rfl
  · intro cs rest hs payload after hp
    rw [compileUnit_tag hs, compileUnit_tag hs]
    exact translate_beside _ (compileTag_translate hom st _)
  · intro cs h₁ h₂ h₃
    rw [compileUnit_term h₁ h₂ h₃, compileUnit_term h₁ h₂ h₃]
    exact compileTerm_translate hom st _

/-- Translates every constraint of a compilation. -/
def Compilation.map (h : C → D) (c : Compilation C) : Compilation D :=
  ⟨c.events.map (Event.map h), c.result.map (Option.map h)⟩

theorem compile_map (query : String) : compile G st query = (compile F st query).map h := by
  have hrun := (rules_translate hom st).1 query.toList
  simp only [compile, ← hrun, Build.translate]
  cases (compileAny F st query.toList).result with
  | error s =>
    simp only [Except.map, Compilation.map, List.map_cons, List.map_append, List.cons_append]
    rfl
  | ok r => rfl

end Query

open Query

/-- The outcome of a compilation as a command sees it: a tree, nothing, or an error. -/
def Command.outcome (config : Config) (query : String) :
    Except CommandError (Option FilterTree) :=
  (Command.compileWith FilterTree.factory config query).2

/-- The setting for samples as a configuration. -/
def sampleConfig : Config :=
  ⟨sampleSetting.schema, "user", sampleSetting.searchFields, ⟨[("Y", ⟨"age"⟩)]⟩⟩

theorem Command.compileWith_fold (F : Factory C) (config : Config) (query : String) :
    (Command.compileWith F config query).2 =
      (Command.outcome config query).map (Option.map (FilterTree.fold F)) := by
  rw [Command.outcome, Command.compileWith, Command.compileWith]
  cases config.rootEntity with
  | error e => rfl
  | ok root =>
    simp only [compile_map (FilterTree.fold_hom F), Compilation.map]
    cases (Query.compile FilterTree.factory (_ : Setting) query).result <;> rfl

/-- Every factory compiles a query to what the compiled tree folds to, with the same notes and
the same error. So the printed results of all backends come from one outcome. -/
theorem compile_fold :
    (∀ {C : Type} (F : Factory C) (st : Setting) (query : String),
      compile F st query = (compile FilterTree.factory st query).map (FilterTree.fold F)) ∧
    ∀ (config : Config) (query : String) (d : Sql.Dialect) (json : Bool),
      (Command.compile config query .tree d json).output =
        (Command.outcome config query).map (Command.printTree json) ∧
      (Command.compile config query .sql d json).output =
        (Command.outcome config query).map (fun t =>
          Command.printStatement json
            (t.map fun t => Sql.Statement.render d (t.fold Sql.Condition.factory))) ∧
      (Command.compile config query .mongo d json).output =
        (Command.outcome config query).map (fun t =>
          Command.printDocument (t.map (FilterTree.fold Mongo.factory))) := by
  refine ⟨?_, ?_⟩
  · intro C F st query
    exact compile_map (FilterTree.fold_hom F) st query
  · intro config query d json
    have hsql := Command.compileWith_fold Sql.Condition.factory config query
    have hmongo := Command.compileWith_fold Mongo.factory config query
    refine ⟨rfl, ?_, ?_⟩
    · simp only [Command.compile, hsql]
      cases Command.outcome config query with
      | error e => rfl
      | ok t => cases t <;> rfl
    · simp only [Command.compile, hmongo]
      cases Command.outcome config query with
      | error e => rfl
      | ok t => rfl

end FilterQuery
