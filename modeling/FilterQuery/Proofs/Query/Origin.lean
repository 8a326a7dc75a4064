import FilterQuery.Proofs.Query.Taken
import FilterQuery.Proofs.Query.Trace
import FilterQuery.Proofs.Text.Split

/-!
Where the leaves of a tree come from. Every comparison in a compiled tree has been read off the
query: it stands for an operator and the value behind it, or for a tag. So null is compared with
only where the value behind an operator is a lone minus sign without quotes. Every search word is
spelled with characters of the query.
-/
namespace FilterQuery

namespace DataType

theorem readTrimmed?_ne_null (t : DataType) (s : String) : t.readTrimmed? s ≠ some .null := by
  cases t <;> simp [readTrimmed?]

/-- No type reads a text as null. -/
theorem read_ne_null (t : DataType) (raw : String) : t.read raw ≠ .ok .null := by
  fun_cases DataType.read t raw with
  | case1 => simp
  | case2 => simp
  | case3 => simp
  | case4 t _ _ v h =>
    rintro ⟨⟩
    exact t.readTrimmed?_ne_null _ h
  | case5 => simp

end DataType

namespace Query

open Build FilterTree

theorem converted_ne_null (r : Resolved) (raw : String) : converted r raw ≠ .null := by
  have hread := r.property.type.read_ne_null raw
  rw [converted]
  cases h : r.property.type.read raw with
  | error e => simp
  | ok v =>
    rintro rfl
    exact hread h

/-- A term stands for null if it is a lone minus sign without quotes. -/
theorem operandValue_eq_null_iff (r : Resolved) (t : Term) :
    operandValue r t = .null ↔ t = ⟨nullSign, false⟩ := by
  obtain ⟨text, exact⟩ := t
  rw [operandValue]
  cases exact with
  | true => simpa using converted_ne_null r text
  | false =>
    by_cases h : text = nullSign
    · simp [h]
    · simpa [h] using converted_ne_null r text

/-- A text asks for a comparison with an operator in front of a value, or with a tag. -/
inductive Asks (st : Setting) (cs : List Char) : FieldPath → Operator → Value → Prop where
  | operator {field : FieldPath} {r : Resolved} {after : List Char} {op : Operator} {width : Nat}
      (hr : st.schema.resolve? st.root field = some r) (hs : after <:+ cs)
      (ho : Operator.at? after = some (op, width)) :
      Asks st cs field op (operandValue r (takeValue (after.drop width)).1)
  | tag {field : FieldPath} {r : Resolved} {rest : List Char} {type value : String}
      (hr : st.schema.resolve? st.root field = some r) (hs : '|' :: '|' :: rest <:+ cs)
      (ht : Tag.read (String.ofList (takePayload rest).1) = ⟨some type, some value⟩)
      (hl : st.tags.lookup type = some field) : Asks st cs field .equal (converted r value)

variable {st : Setting} {cs ds : List Char}

theorem Asks.mono {field : FieldPath} {op : Operator} {value : Value}
    (h : Asks st cs field op value) (hs : cs <:+ ds) : Asks st ds field op value := by
  cases h with
  | operator hr h ho => exact .operator hr (h.trans hs) ho
  | tag hr h ht hl => exact .tag hr (h.trans hs) ht hl

/-- Only an operator with a lone minus sign behind it asks for null. -/
theorem Asks.null {field : FieldPath} {op : Operator} (h : Asks st cs field op .null) :
    ∃ after width, after <:+ cs ∧ Operator.at? after = some (op, width) ∧
      (takeValue (after.drop width)).1 = ⟨nullSign, false⟩ := by
  generalize hv : Value.null = v at h
  cases h with
  | @operator r after op width hr hs ho =>
    exact ⟨after, width, hs, ho, (operandValue_eq_null_iff r _).mp hv.symm⟩
  | @tag r rest type value hr hs ht hl => exact absurd hv.symm (converted_ne_null r value)

/-- A leaf that stems from a text: a comparison that it asks for, or a search for a word that is
spelled with its characters. -/
inductive Stems (st : Setting) (cs : List Char) : FilterTree → Prop where
  | compare {field : FieldPath} {op : Operator} {value : Value} (h : Asks st cs field op value) :
      Stems st cs (.compare field op value)
  | search (field : FieldPath) (mode : SearchMode) {word : String} (h : word.toList ⊆ cs) :
      Stems st cs (.search field mode word)

theorem Stems.mono {t : FilterTree} (h : Stems st cs t) (hs : cs <:+ ds) : Stems st ds t := by
  cases h with
  | compare h => exact .compare (h.mono hs)
  | search field mode h => exact .search field mode (List.Subset.trans h hs.subset)

/-- The text asks for all leaves of a tree. -/
def Asked (st : Setting) (cs : List Char) (t : FilterTree) : Prop :=
  ∀ n ∈ t.postOrder, n.isLeaf = true → Stems st cs n

theorem Asked.mono {t : FilterTree} (h : Asked st cs t) (hs : cs <:+ ds) : Asked st ds t :=
  fun n hm hn => (h n hm hn).mono hs

theorem Asked.compare {t : FilterTree} (h : Asked st cs t) {field : FieldPath} {op : Operator}
    {value : Value} (hm : FilterTree.compare field op value ∈ t.postOrder) :
    Asks st cs field op value := by
  cases h _ hm rfl with
  | compare h => exact h

theorem Asked.search {t : FilterTree} (h : Asked st cs t) {field : FieldPath} {mode : SearchMode}
    {word : String} (hm : FilterTree.search field mode word ∈ t.postOrder) :
    word.toList ⊆ cs := by
  cases h _ hm rfl with
  | search _ _ h => exact h

theorem asked_compare {field : FieldPath} {op : Operator} {value : Value}
    (h : Asks st cs field op value) : Asked st cs (.compare field op value) := by
  intro n hm _
  cases List.mem_singleton.mp hm
  exact .compare h

theorem asked_search (field : FieldPath) (mode : SearchMode) {word : String}
    (h : word.toList ⊆ cs) : Asked st cs (.search field mode word) := by
  intro n hm _
  cases List.mem_singleton.mp hm
  exact .search field mode h

theorem asked_junction (join : List FilterTree → FilterTree) {ts : List FilterTree}
    (hj : (join ts).postOrder = postOrderList ts ++ [join ts]) (hl : (join ts).isLeaf = false)
    (h : ∀ t ∈ ts, Asked st cs t) : Asked st cs (join ts) := by
  intro n hm hn
  obtain ⟨t, ht, hm⟩ := exists_of_mem_junction hj hl hn hm
  exact h t ht n hm hn

theorem asked_all {ts : List FilterTree} (h : ∀ t ∈ ts, Asked st cs t) : Asked st cs (.all ts) :=
  asked_junction .all rfl rfl h

theorem asked_any {ts : List FilterTree} (h : ∀ t ∈ ts, Asked st cs t) : Asked st cs (.any ts) :=
  asked_junction .any rfl rfl h

theorem asked_negate {t : FilterTree} (h : Asked st cs t) : Asked st cs (.negate t) := by
  intro n hm hn
  rcases List.mem_append.mp hm with hm | hm
  · exact h n hm hn
  · cases List.mem_singleton.mp hm
    cases hn

/-- The search for a term looks for words of the term and compares nothing with an operator. -/
theorem asked_termBlock {term : Term} {t : FilterTree} (hterm : term.text.toList ⊆ cs)
    (h : t ∈ termBlock factory st term) : Asked st cs t := by
  have hgroup (mode : Option SearchMode) {word : String} (hword : word.toList ⊆ cs) :
      Asked st cs (wordGroup factory st mode word) := by
    apply asked_any
    intro t ht
    obtain ⟨f, -, rfl⟩ := List.mem_map.mp ht
    exact asked_search f.field _ hword
  rw [termBlock, phraseBlock, wordsBlock] at h
  split at h
  · split at h
    · cases h
    · cases h
      exact asked_all (by simpa using hgroup _ hterm)
  · split at h
    · cases h
    · cases h
      apply asked_all
      intro t ht
      obtain ⟨w, hw, rfl⟩ := List.mem_map.mp ht
      have hword : (String.ofList w).toList ⊆ cs := by
        rw [String.toList_ofList]
        exact List.Subset.trans (Text.words_subset hw) hterm
      exact hgroup none hword

theorem asked_tagged {rest : List Char} {t : FilterTree} (hs : '|' :: '|' :: rest <:+ cs)
    (h : t ∈ tagged factory st (Tag.read (String.ofList (takePayload rest).1))) :
    Asked st cs t := by
  rw [tagged_eq_tagEquality] at h
  match ht : Tag.read (String.ofList (takePayload rest).1) with
  | ⟨none, _⟩ =>
    rw [ht] at h
    cases h
  | ⟨some _, none⟩ =>
    rw [ht] at h
    cases h
  | ⟨some type, some value⟩ =>
    rw [ht] at h
    obtain ⟨field, hl, h⟩ := Option.bind_eq_some_iff.mp h
    obtain ⟨r, hr, rfl⟩ := Option.map_eq_some_iff.mp h
    exact asked_compare (.tag hr hs ht hl)

/-- The text asks for what came of it, and an end of it is left over. -/
def Found (st : Setting) (cs : List Char) (r : Option FilterTree × List Char) : Prop :=
  (∀ t ∈ r.1, Asked st cs t) ∧ r.2 <:+ cs

/-- The same of a list of parts. -/
def AllFound (st : Setting) (cs : List Char) (r : List FilterTree × List Char) : Prop :=
  (∀ t ∈ r.1, Asked st cs t) ∧ r.2 <:+ cs

theorem Found.mono {r : Option FilterTree × List Char} (h : Found st cs r) (hs : cs <:+ ds) :
    Found st ds r :=
  ⟨fun t ht => (h.1 t ht).mono hs, h.2.trans hs⟩

theorem AllFound.mono {r : List FilterTree × List Char} (h : AllFound st cs r) (hs : cs <:+ ds) :
    AllFound st ds r :=
  ⟨fun t ht => (h.1 t ht).mono hs, h.2.trans hs⟩

/-- A run on a text, of which every value that may come back satisfies `P`. -/
abbrev Finds {α : Type} (P : α → Prop) (x : Build FilterTree α) : Prop :=
  x.Ensures (fun _ => True) P

/-- A term of a text, in front of an end of that text. -/
theorem compileOperation_finds {t : Term} (skipped : Bool) (ht : t.text.toList ⊆ ds)
    (hs : cs <:+ ds) : Finds (Found st ds) (compileOperation factory st t skipped cs) := by
  cases hr : st.schema.resolve? st.root ⟨t.text⟩ with
  | none =>
    have hterm : (looseTerm t skipped cs).1.text.toList ⊆ ds ∧
        (looseTerm t skipped cs).2 <:+ ds := by
      cases skipped with
      | true => exact ⟨ht, hs⟩
      | false => exact ⟨extendTerm_subset ht hs.subset, (extendTerm_suffix t cs).trans hs⟩
    exact (compileOperation_yields st (admitsOwn_true _) t skipped cs hr).ensures
      ⟨fun u hu => asked_termBlock hterm.1 hu, hterm.2⟩
  | some r =>
    rw [compileOperation, hr]
    cases ho : Operator.at? cs with
    | none =>
      simp only [compileComparison, ho]
      exact ensures_stop t.text cs
    | some o =>
      obtain ⟨op, width⟩ := o
      refine (compileComparison_yields (admitsOwn_true _) t.text r ho).ensures ⟨?_, ?_⟩
      · intro u hu
        cases hu
        rw [factory_compare]
        exact asked_compare (.operator hr hs ho)
      · exact ((takeValue_suffix _).trans (List.drop_suffix width cs)).trans hs

theorem compileTerm_finds (cs : List Char) :
    Finds (Found st cs) (compileTerm factory st cs) := by
  have hs := skipStray_suffix cs
  have ha := (takeTerm_suffix (skipStray cs)).trans hs
  have hb := (skipBlanks_suffix (takeTerm (skipStray cs)).2).trans ha
  have ht := List.Subset.trans (takeTerm_subset (skipStray cs)) hs.subset
  rw [compileTerm]
  by_cases hc : atClose (skipStray cs) = true
  · simp only [hc, ↓reduceIte]
    exact ensures_pure ⟨by simp, hs⟩
  · simp only [hc, Bool.false_eq_true, ↓reduceIte]
    split
    · exact compileOperation_finds _ ht hb
    · have hy := (searchTerm_yields st (admitsOwn_true factory) (takeTerm (skipStray cs)).1).bind
        (f := fun c => pure (c, Text.skipBlanks (takeTerm (skipStray cs)).2)) (yields_pure _)
      exact hy.ensures ⟨fun t hm => asked_termBlock ht hm, hb⟩

/-- Parts joined after a list of them has been read. -/
theorem finds_combine {x : Build FilterTree (List FilterTree × List Char)}
    {join : List FilterTree → FilterTree} (hx : Finds (AllFound st cs) x)
    (hj : ∀ ts, (∀ t ∈ ts, Asked st cs t) → Asked st cs (join ts)) :
    Finds (Found st cs)
      (do let (parts, rest) ← x; let c ← combine join parts; pure (c, rest)) := by
  refine hx.bind fun r hr => ?_
  have hy := (combine_yields (E := fun _ => True) join r.1 fun _ => trivial).bind
    (f := fun c => pure (c, r.2)) (yields_pure _)
  exact hy.ensures ⟨joined_preserves (fun ts _ => hj ts) hr.1, hr.2⟩

/-- A part in front of those that follow it. -/
theorem finds_cons {x : Build FilterTree (List FilterTree × List Char)} {part : Option FilterTree}
    (hp : ∀ t ∈ part, Asked st cs t) (hx : Finds (AllFound st cs) x) :
    Finds (AllFound st cs) (do let (parts, rest) ← x; pure (part.toList ++ parts, rest)) := by
  refine hx.bind fun r hr => ensures_pure ⟨?_, hr.2⟩
  intro t ht
  rcases List.mem_append.mp ht with ht | ht
  · exact hp t (Option.mem_toList.mp ht)
  · exact hr.1 t ht

theorem anyParts_finds {cs : List Char} (hc : ¬atClose cs = true)
    (h : Finds (Found st cs) (compileAll factory st cs))
    (hn : ∀ rest : List Char, (rest.drop 2).length < cs.length →
      Finds (AllFound st (rest.drop 2)) (anyParts factory st (rest.drop 2))) :
    Finds (AllFound st cs) (anyParts factory st cs) := by
  rw [anyParts, if_neg hc]
  refine h.bind ?_
  rintro ⟨part, rest⟩ hr
  have hpart : Finds (AllFound st cs) (pure (part.toList, rest)) :=
    ensures_pure ⟨by simpa using hr.1, hr.2⟩
  have hd : rest.drop 2 <:+ cs := (List.drop_suffix 2 rest).trans hr.2
  simp only
  split
  · split
    · next hl => exact finds_cons hr.1 ((hn rest hl).imp fun r h => h.mono hd)
    · exact hpart
  · exact hpart

theorem allParts_finds {cs : List Char} (hc : ¬atClose cs = true)
    (h : Finds (Found st cs) (compileUnit factory st cs))
    (hn : ∀ rest : List Char, (skipAnd (Text.skipBlanks rest)).length < cs.length →
      Finds (AllFound st (skipAnd (Text.skipBlanks rest)))
        (allParts factory st (skipAnd (Text.skipBlanks rest)))) :
    Finds (AllFound st cs) (allParts factory st cs) := by
  rw [allParts, if_neg hc]
  refine h.bind ?_
  rintro ⟨part, rest⟩ hr
  have hb : Text.skipBlanks rest <:+ cs := (skipBlanks_suffix rest).trans hr.2
  have hpart : Finds (AllFound st cs) (pure (part.toList, Text.skipBlanks rest)) :=
    ensures_pure ⟨by simpa using hr.1, hb⟩
  have ha := (skipAnd_suffix (Text.skipBlanks rest)).trans hb
  simp only
  split
  · exact hpart
  · split
    · next hl => exact finds_cons hr.1 ((hn rest hl).imp fun r h => h.mono ha)
    · exact hpart

theorem negation_finds {cs rest : List Char} (hs : Text.skipBlanks cs = '!' :: rest)
    (h : Finds (Found st rest) (compileUnit factory st rest)) :
    Finds (Found st cs) (compileUnit factory st cs) := by
  have hr : rest <:+ cs := suffix_of_skipBlanks_eq ['!'] hs
  rw [compileUnit_not hs]
  refine Ensures.bind (h.imp fun r hf => hf.mono hr) ?_
  rintro ⟨_ | t, after⟩ hf
  · exact ensures_pure ⟨by simp, hf.2⟩
  · have hy := (yields_make (E := fun _ => True) (c := factory.negate t) trivial).bind
      (f := fun c => pure (some c, after)) (yields_pure _)
    have hn : Asked st cs (factory.negate t) := asked_negate (hf.1 t rfl)
    exact hy.ensures ⟨by simpa using hn, hf.2⟩

theorem group_finds {cs rest : List Char} (hs : Text.skipBlanks cs = '(' :: rest)
    (h : Finds (Found st rest) (compileAny factory st rest)) :
    Finds (Found st cs) (compileUnit factory st cs) := by
  have hr : rest <:+ cs := suffix_of_skipBlanks_eq ['('] hs
  rw [compileUnit_group hs]
  refine Ensures.bind (h.imp fun r hf => hf.mono hr) ?_
  rintro ⟨t, after⟩ hf
  exact ensures_pure ⟨hf.1, (dropClose_suffix after).trans hf.2⟩

theorem tag_finds {cs rest : List Char} (hs : Text.skipBlanks cs = '|' :: '|' :: rest) :
    Finds (Found st cs) (compileUnit factory st cs) := by
  have hb := skipBlanks_suffix cs
  rw [hs] at hb
  have hr : rest <:+ cs := (suffix_cons_cons List.suffix_rfl).trans hb
  exact (compileUnit_tag_yields (admits_true factory st) hs).ensures
    ⟨fun t ht => asked_tagged hb ht, (takePayload_suffix rest).trans hr⟩

/-- Every rule builds only leaves that stem from its text. -/
theorem rules_find :
    (∀ cs, Finds (Found st cs) (compileAny factory st cs)) ∧
      (∀ cs, Finds (AllFound st cs) (anyParts factory st cs)) ∧
      (∀ cs, Finds (Found st cs) (compileAll factory st cs)) ∧
      (∀ cs, Finds (AllFound st cs) (allParts factory st cs)) ∧
      ∀ cs, Finds (Found st cs) (compileUnit factory st cs) := by
  refine compileAny.mutual_induct _ _ _ _ _ ?_ ?_ ?_ ?_ ?_ ?_ ?_ ?_ ?_ ?_
  · intro cs ih
    rw [compileAny]
    exact finds_combine ih fun _ => asked_any
  · intro cs hc
    rw [anyParts, if_pos hc]
    exact ensures_pure ⟨by simp, List.suffix_rfl⟩
  · intro cs hc ih₁ ih₂
    exact anyParts_finds hc ih₁ ih₂
  · intro cs ih
    rw [compileAll]
    exact finds_combine ih fun _ => asked_all
  · intro cs hc
    rw [allParts, if_pos hc]
    exact ensures_pure ⟨by simp, List.suffix_rfl⟩
  · intro cs hc ih₁ ih₂
    exact allParts_finds hc ih₁ ih₂
  · intro cs rest hs ih
    exact negation_finds hs ih
  · intro cs rest hs ih
    exact group_finds hs ih
  · intro cs rest hs payload after hp
    exact tag_finds hs
  · intro cs h₁ h₂ h₃
    rw [compileUnit_term h₁ h₂ h₃]
    exact (compileTerm_finds _).imp fun r hr => hr.mono (skipBlanks_suffix cs)

/-- A query asks for every leaf of its tree. -/
theorem asked_of_compile {query : String} {t : FilterTree}
    (h : (compile factory st query).result = .ok (some t)) : Asked st query.toList t := by
  rw [compile] at h
  cases hr : (compileAny factory st query.toList).result with
  | error s => simp [hr] at h
  | ok r =>
    have hc : r.1 = some t := by simpa [hr] using h
    exact ((rules_find.1 query.toList).result r hr).1 t hc

end Query

end FilterQuery
