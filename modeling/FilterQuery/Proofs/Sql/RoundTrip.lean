import FilterQuery.Proofs.Sql.Parser

/-!
The text of an SQL condition means the condition. Whatever the factory builds, with no empty
junction in it, is read back from its text and its values, up to junctions of one part, which
the text does not show.
-/
namespace FilterQuery.Sql

/-- What the calls of the factory build when no list of parts is empty. -/
inductive Built : Condition → Prop where
  | all {cs : List Condition} (hne : cs ≠ []) (h : ∀ c ∈ cs, Built c) :
      Built (Condition.factory.all cs)
  | any {cs : List Condition} (hne : cs ≠ []) (h : ∀ c ∈ cs, Built c) :
      Built (Condition.factory.any cs)
  | negate {c : Condition} (h : Built c) : Built (Condition.factory.negate c)
  | compare (field : FieldPath) (op : Operator) (value : Value) :
      Built (Condition.factory.compare field op value)
  | search (field : FieldPath) (mode : SearchMode) (word : String) :
      Built (Condition.factory.search field mode word)

mutual

/-- The condition with every junction of one part replaced by that part. -/
def Condition.collapse : Condition → Condition
  | .column c => .column c
  | .value v => .value v
  | .comparison left op right => .comparison (Condition.collapse left) op (Condition.collapse right)
  | .like child pattern => .like (Condition.collapse child) (Condition.collapse pattern)
  | .isNull child negated => .isNull (Condition.collapse child) negated
  | .all children => group .all (collapseList children)
  | .any children => group .any (collapseList children)
  | .negate child => .negate (Condition.collapse child)

def collapseList : List Condition → List Condition
  | [] => []
  | c :: cs => Condition.collapse c :: collapseList cs

end

theorem values_group {join : List Condition → Condition}
    (hj : ∀ cs, (join cs).values = valuesList cs) (cs : List Condition) :
    (group join cs).values = valuesList cs := by
  match cs with
  | [] => exact hj []
  | [c] => simp [group, valuesList]
  | c :: c' :: cs => exact hj _

mutual

theorem values_collapse (c : Condition) : c.collapse.values = c.values := by
  match c with
  | .column c => rfl
  | .value v => rfl
  | .comparison left op right =>
    simp [Condition.collapse, Condition.values, values_collapse left, values_collapse right]
  | .like child pattern =>
    simp [Condition.collapse, Condition.values, values_collapse child, values_collapse pattern]
  | .isNull child negated => exact values_collapse child
  | .all children =>
    rw [Condition.collapse, values_group fun _ => rfl]
    exact valuesList_collapseList children
  | .any children =>
    rw [Condition.collapse, values_group fun _ => rfl]
    exact valuesList_collapseList children
  | .negate child => exact values_collapse child

theorem valuesList_collapseList (cs : List Condition) :
    valuesList (collapseList cs) = valuesList cs := by
  match cs with
  | [] => rfl
  | c :: cs => simp [collapseList, valuesList, values_collapse c, valuesList_collapseList cs]

end

@[simp] theorem parenthesize_params (needed : Bool) (f : Fragment) :
    (parenthesize needed f).params = f.params := by
  cases needed <;> simp [parenthesize, Fragment.ofText]

mutual

theorem render_params (d : Dialect) (index : Nat) (c : Condition) :
    (c.render d index).params = c.values := by
  match c with
  | .column c => rfl
  | .value v => rfl
  | .comparison left op right =>
    simp [Condition.render, Condition.values, Fragment.ofText, render_params d _ left,
      render_params d _ right]
  | .like child pattern =>
    simp [Condition.render, Condition.values, Fragment.ofText, render_params d _ child,
      render_params d _ pattern]
  | .isNull child negated =>
    simp [Condition.render, Condition.values, Fragment.ofText, render_params d _ child]
  | .all children => exact renderList_params d _ index children
  | .any children => exact renderList_params d _ index children
  | .negate child =>
    simp [Condition.render, Condition.values, Fragment.ofText, render_params d _ child]

theorem renderList_params (d : Dialect) (separator : List Char) (index : Nat)
    (cs : List Condition) : (renderList d separator index cs).params = valuesList cs := by
  match cs with
  | [] => rfl
  | [c] => simp [renderList, valuesList, render_params d _ c]
  | c :: c' :: cs =>
    have hc := render_params d index c
    have hcs := renderList_params d separator (index + c.values.length) (c' :: cs)
    simp [renderList, valuesList, Fragment.ofText, hc, hcs]

end

/-- The text is read as one unit, whatever stands after it. -/
def ReadsUnit (d : Dialect) (text : List Char) (t : Template) : Prop :=
  ∃ ts, Lexes d text ts ∧ ∀ rest, takeUnit (ts ++ rest) = some (t, rest)

/-- The text is read as units between `AND`s. -/
def ReadsAll (d : Dialect) (text : List Char) (parts : List Template) : Prop :=
  ∃ ts, Lexes d text ts ∧ ∀ rest, rest.head? ≠ some .and → takeAll (ts ++ rest) = some (parts, rest)

/-- The text is read as alternatives between `OR`s. -/
def ReadsAny (d : Dialect) (text : List Char) (parts : List Template) : Prop :=
  ∃ ts, Lexes d text ts ∧
    ∀ rest, rest.head? ≠ some .and → rest.head? ≠ some .or →
      takeAny (ts ++ rest) = some (parts, rest)

variable {d : Dialect} {a b text : List Char} {t : Template} {parts : List Template}

theorem ReadsUnit.all (h : ReadsUnit d text t) : ReadsAll d text [t] := by
  obtain ⟨ts, hl, ht⟩ := h
  exact ⟨ts, hl, fun rest hr => takeAll_last (ht rest) hr⟩

theorem ReadsAll.any (h : ReadsAll d text parts) : ReadsAny d text [group .all parts] := by
  obtain ⟨ts, hl, ht⟩ := h
  exact ⟨ts, hl, fun rest ha ho => takeAny_last (ht rest ha) ho⟩

theorem ReadsUnit.and (ha : ReadsUnit d a t) (hb : ReadsAll d b parts) :
    ReadsAll d (a ++ (" AND ".toList ++ b)) (t :: parts) := by
  obtain ⟨ts, hl, ht⟩ := ha
  obtain ⟨us, hm, hu⟩ := hb
  refine ⟨ts ++ .and :: us, hl.append hm.and, ?_⟩
  intro rest hr
  rw [List.append_assoc, List.cons_append]
  refine takeAll_and (ht _) ?_ (hu rest hr)
  simp only [List.length_append, List.length_cons]
  omega

theorem ReadsUnit.or (ha : ReadsUnit d a t) (hb : ReadsAny d b parts) :
    ReadsAny d (a ++ (" OR ".toList ++ b)) (t :: parts) := by
  obtain ⟨ts, hl, ht⟩ := ha
  obtain ⟨us, hm, hu⟩ := hb
  refine ⟨ts ++ .or :: us, hl.append hm.or, ?_⟩
  intro rest ha ho
  rw [List.append_assoc, List.cons_append]
  refine takeAny_or (takeAll_last (ht _) (by simp)) ?_ (hu rest ha ho)
  simp only [List.length_append, List.length_cons]
  omega

theorem ReadsUnit.not (h : ReadsUnit d text t) :
    ReadsUnit d ("NOT ".toList ++ text) (.negate t) := by
  obtain ⟨ts, hl, ht⟩ := h
  exact ⟨.not :: ts, hl.not, fun rest => takeUnit_not (ht rest)⟩

theorem ReadsAny.parenthesized (h : ReadsAny d text parts) :
    ReadsUnit d ('(' :: (text ++ [')'])) (group .any parts) := by
  obtain ⟨ts, hl, ht⟩ := h
  refine ⟨_, hl.parenthesized, ?_⟩
  intro rest
  rw [List.cons_append, List.append_assoc]
  exact takeUnit_opening (ht _ (by simp) (by simp))

theorem reads_comparison (d : Dialect) (index : Nat) (c : Column) (op : Operator) :
    ReadsUnit d (c.write d ++ ' ' :: (op.symbol.toList ++ ' ' :: d.placeholder index))
      (.comparison (.column c) op (.parameter (d.number index))) := by
  have ho := ((lexes_operator d op).append (lexes_placeholder d index).space).space
  refine ⟨_, (lexes_column d c).append ho, ?_⟩
  intro rest
  rw [List.append_assoc, takeUnit_column c (by simp)]
  rfl

theorem reads_like (d : Dialect) (index : Nat) (c : Column) :
    ReadsUnit d (c.write d ++ ' ' :: (d.likeOperator.toList ++ ' ' :: d.placeholder index))
      (.like (.column c) (.parameter (d.number index))) := by
  refine ⟨_, (lexes_column d c).append (lexes_placeholder d index).like, ?_⟩
  intro rest
  rw [List.append_assoc, takeUnit_column c (by simp)]
  rfl

theorem reads_isNull (d : Dialect) (c : Column) (negated : Bool) :
    ReadsUnit d (c.write d ++ (if negated then " IS NOT NULL" else " IS NULL").toList)
      (.isNull (.column c) negated) := by
  have hn := lexes_null d negated
  have hs : ∃ text, (if negated then " IS NOT NULL" else " IS NULL").toList = ' ' :: text := by
    cases negated <;> exact ⟨_, rfl⟩
  obtain ⟨text, he⟩ := hs
  rw [he] at hn ⊢
  refine ⟨_, (lexes_column d c).append hn, ?_⟩
  intro rest
  rw [List.append_assoc, takeUnit_column c (by cases negated <;> simp [nullTokens])]
  cases negated <;> rfl

/-- The text of a condition as a part of another one. -/
def Condition.nested (d : Dialect) (index : Nat) (c : Condition) : List Char :=
  (parenthesize c.isGroup (c.render d index)).text

/-- As a part of another one, the condition is read as one unit. -/
def Condition.Nests (d : Dialect) (c : Condition) : Prop :=
  ∀ index, ReadsUnit d (c.nested d index) (c.collapse.template d index)

theorem renderList_one (d : Dialect) (separator : List Char) (index : Nat) (c : Condition) :
    (renderList d separator index [c]).text = c.nested d index := by
  rw [renderList, Condition.nested]

theorem renderList_more (d : Dialect) (separator : List Char) (index : Nat)
    (c c' : Condition) (cs : List Condition) :
    (renderList d separator index (c :: c' :: cs)).text =
      c.nested d index ++
        (separator ++ (renderList d separator (index + c.values.length) (c' :: cs)).text) := by
  rw [renderList]
  · simp [Condition.nested, Fragment.ofText, render_params d index c]
  · simp

/-- The texts of several parts with a separator between them are read in order. -/
theorem reads_list {R : List Char → List Template → Prop} {separator : List Char}
    (hone : ∀ {text t}, ReadsUnit d text t → R text [t])
    (hmore : ∀ {a b t parts}, ReadsUnit d a t → R b parts → R (a ++ (separator ++ b)) (t :: parts))
    {cs : List Condition} (h : ∀ c ∈ cs, c.Nests d) (hne : cs ≠ []) (index : Nat) :
    R (renderList d separator index cs).text (templateList d index (collapseList cs)) := by
  induction cs generalizing index with
  | nil => exact absurd rfl hne
  | cons c cs ih =>
    have hc := h c List.mem_cons_self index
    cases cs with
    | nil =>
      rw [renderList_one]
      exact hone hc
    | cons c' cs =>
      have hcs := ih (fun e he => h e (List.mem_cons_of_mem c he)) (by simp)
        (index + c.values.length)
      rw [renderList_more, collapseList, templateList, values_collapse]
      exact hmore hc hcs

/-- On its own, the condition is read as alternatives that stand for it. -/
def Condition.Stands (d : Dialect) (c : Condition) : Prop :=
  ∀ index, ∃ parts, ReadsAny d (c.render d index).text parts ∧
    group .any parts = c.collapse.template d index

theorem template_group {join : List Condition → Condition} {join' : List Template → Template}
    (hj : ∀ cs index, (join cs).template d index = join' (templateList d index cs))
    (cs : List Condition) (index : Nat) :
    (group join cs).template d index = group join' (templateList d index cs) := by
  match cs with
  | [] => exact hj [] index
  | [c] => rfl
  | c :: c' :: cs => exact hj _ index

theorem stands_all {cs : List Condition} (h : ∀ c ∈ cs, c.Nests d) (hne : cs ≠ []) :
    (Condition.all cs).Stands d := by
  intro index
  refine ⟨_, (reads_list ReadsUnit.all ReadsUnit.and h hne index).any, ?_⟩
  rw [Condition.collapse, template_group fun _ _ => rfl]
  rfl

theorem stands_any {cs : List Condition} (h : ∀ c ∈ cs, c.Nests d) (hne : cs ≠ []) :
    (Condition.any cs).Stands d := by
  intro index
  refine ⟨_, reads_list (fun hu => hu.all.any) ReadsUnit.or h hne index, ?_⟩
  rw [Condition.collapse, template_group fun _ _ => rfl]

theorem nests_of_stands {c : Condition} (hg : c.isGroup = true) (h : c.Stands d) : c.Nests d := by
  intro index
  obtain ⟨parts, hr, ht⟩ := h index
  have hp := hr.parenthesized
  rw [ht] at hp
  simpa [Condition.nested, hg, parenthesize, Fragment.ofText] using hp

theorem stands_of_nests {c : Condition} (hg : c.isGroup = false) (h : c.Nests d) :
    c.Stands d := by
  intro index
  have hu := h index
  rw [Condition.nested, hg] at hu
  exact ⟨_, hu.all.any, rfl⟩

/-- A junction nests when its parts do. With one part it has the text of that part. -/
theorem nests_junction (join : List Condition → Condition) {separator : List Char}
    (hr : ∀ cs index, (join cs).render d index = renderList d separator index cs)
    (hc : ∀ cs, (join cs).collapse = group join (collapseList cs))
    (hg : ∀ cs, (join cs).isGroup = decide (1 < cs.length)) {cs : List Condition}
    (hne : cs ≠ []) (h : ∀ c ∈ cs, c.Nests d) (hs : (join cs).Stands d) : (join cs).Nests d := by
  match cs with
  | [] => exact absurd rfl hne
  | [c] =>
    intro index
    have hu := h c List.mem_cons_self index
    rw [Condition.nested, hg, hr, hc]
    simpa [parenthesize, renderList_one, collapseList, group] using hu
  | c :: c' :: cs => exact nests_of_stands (by simp [hg]) hs

theorem nests_all {cs : List Condition} (hne : cs ≠ []) (h : ∀ c ∈ cs, c.Nests d) :
    (Condition.all cs).Nests d :=
  nests_junction .all (fun _ _ => by rw [Condition.render]) (fun _ => by rw [Condition.collapse])
    (fun _ => rfl) hne h (stands_all h hne)

theorem nests_any {cs : List Condition} (hne : cs ≠ []) (h : ∀ c ∈ cs, c.Nests d) :
    (Condition.any cs).Nests d :=
  nests_junction .any (fun _ _ => by rw [Condition.render]) (fun _ => by rw [Condition.collapse])
    (fun _ => rfl) hne h (stands_any h hne)

theorem nests_leaf {c : Condition} (hg : c.isGroup = false)
    (h : ∀ index, ReadsUnit d (c.render d index).text (c.collapse.template d index)) :
    c.Nests d := by
  intro index
  rw [Condition.nested, hg]
  exact h index

theorem nests_compare (field : FieldPath) (op : Operator) (value : Value) :
    (Condition.compare field op value).Nests d := by
  refine nests_leaf rfl fun index => ?_
  have h := reads_comparison d index (.ofField field) op
  simpa [Condition.compare, Condition.ofField, Condition.render, Condition.collapse,
    Condition.template, Condition.values, Fragment.ofText] using h

theorem nests_matching (field : FieldPath) (pattern : List Char) :
    (Condition.matching field pattern).Nests d := by
  refine nests_leaf rfl fun index => ?_
  have h := reads_like d index (.ofField field)
  simpa [Condition.matching, Condition.ofField, Condition.render, Condition.collapse,
    Condition.template, Condition.values, Fragment.ofText] using h

theorem nests_equality (field : FieldPath) (negated : Bool) (value : Value) :
    (Condition.equality field negated value).Nests d := by
  rw [Condition.equality]
  split
  · exact nests_leaf rfl fun index => reads_isNull d (.ofField field) negated
  · exact nests_compare field _ value

theorem nests_negate {c : Condition} (h : c.Nests d) : (Condition.negate c).Nests d :=
  nests_leaf rfl fun index => (h index).not

theorem Built.nests {c : Condition} (h : Built c) : c.Nests d := by
  induction h with
  | all hne _ ih => exact nests_all hne ih
  | any hne _ ih => exact nests_any hne ih
  | negate _ ih => exact nests_negate ih
  | compare field op value =>
    cases op with
    | equal => exact nests_equality field false value
    | notEqual => exact nests_equality field true value
    | greaterThan => exact nests_compare field .greaterThan value
    | greaterOrEqual => exact nests_compare field .greaterOrEqual value
    | lessThan => exact nests_compare field .lessThan value
    | lessOrEqual => exact nests_compare field .lessOrEqual value
  | search field mode word =>
    cases mode with
    | equal => exact nests_compare field .equal (.string word)
    | beginning => exact nests_matching field _
    | like => exact nests_matching field _
    | contains => exact nests_matching field _

theorem Built.stands {c : Condition} (h : Built c) : c.Stands d := by
  cases h with
  | all hne h => exact stands_all (fun c hc => (h c hc).nests) hne
  | any hne h => exact stands_any (fun c hc => (h c hc).nests) hne
  | negate h => exact stands_of_nests rfl (nests_negate h.nests)
  | compare field op value =>
    refine stands_of_nests ?_ (Built.compare field op value).nests
    cases op <;> cases value <;> rfl
  | search field mode word =>
    refine stands_of_nests ?_ (Built.search field mode word).nests
    cases mode <;> rfl

/-- A statement is read back as its condition, up to junctions of one part. -/
theorem Built.read?_render {c : Condition} (h : Built c) :
    (Statement.render d c).read? d = some c.collapse := by
  obtain ⟨parts, ⟨ts, hl, ht⟩, hg⟩ := h.stands (d := d) 0
  have hlex : lex d (c.render d 0).text = some ts := by
    have hn := hl [] ends_nil
    simpa using hn
  have hparse : parse ts = some (c.collapse.template d 0) := by
    have hn := ht [] (by simp) (by simp)
    rw [List.append_nil] at hn
    rw [parse, hn, ← hg]
  have hvalues : c.collapse.values <+: c.values.drop 0 := by rw [values_collapse, List.drop_zero]
  have hfill := fill_template d c.collapse hvalues
  rw [values_collapse, Nat.zero_add] at hfill
  simp [Statement.read?, Statement.render, hlex, hparse, render_params, hfill]

/-- The text of a condition has its meaning: a parser that knows nothing of the condition takes
the whole text, and with the values in place of the placeholders it gives the condition, up to
junctions of one part. So conditions that differ in more than such junctions differ in their
text or in their values. -/
theorem render_meaning :
    (∀ (d : Dialect) (c : Condition), Built c →
      (Statement.render d c).read? d = some c.collapse) ∧
    ∀ (d : Dialect) (c c' : Condition), Built c → Built c' →
      Statement.render d c = Statement.render d c' → c.collapse = c'.collapse := by
  refine ⟨fun d c h => h.read?_render, ?_⟩
  intro d c c' h h' he
  have hr := h.read?_render (d := d)
  rw [he, h'.read?_render] at hr
  exact (Option.some.inj hr).symm

def sampleCondition : Condition :=
  .negate (.any [.all [.matching ⟨"a\"b"⟩ ['x', '%']], .equality ⟨"user.name"⟩ true .null,
    .all [.compare ⟨"n"⟩ .lessThan (.int 5), .compare ⟨"m"⟩ .equal (.boolean true)]])

theorem sampleCondition_built : Built sampleCondition := by
  refine .negate (.any (by simp) ?_)
  simp only [List.forall_mem_cons, List.not_mem_nil, false_imp_iff, implies_true, and_true]
  refine ⟨.all (by simp) ?_, .compare _ .notEqual .null, .all (by simp) ?_⟩
  · rintro c hc
    rw [List.mem_singleton] at hc
    subst hc
    exact .search ⟨"a\"b"⟩ .beginning "x"
  · simp only [List.forall_mem_cons, List.not_mem_nil, false_imp_iff, implies_true, and_true]
    exact ⟨.compare _ .lessThan _, .compare _ .equal (.boolean true)⟩

theorem render_sampleCondition :
    Built sampleCondition ∧ Built (.all [sampleCondition]) ∧
      (Statement.render .postgres sampleCondition).sql =
        "NOT (\"a\"\"b\" ILIKE $1 OR \"user\".\"name\" IS NOT NULL OR " ++
          "(\"n\" < $2 AND \"m\" = $3))" ∧
      (Statement.render .postgres sampleCondition).read? .postgres =
        some sampleCondition.collapse ∧
      Statement.render .postgres sampleCondition =
        Statement.render .postgres (.all [sampleCondition]) ∧
      sampleCondition.collapse = (Condition.all [sampleCondition]).collapse := by
  have h := sampleCondition_built
  have hs : Built (.all [sampleCondition]) := by
    refine .all (by simp) ?_
    simpa using h
  have he : Statement.render .postgres sampleCondition =
      Statement.render .postgres (.all [sampleCondition]) := by
    simp [Statement.render, Condition.render, renderList, sampleCondition, Condition.isGroup,
      parenthesize]
  refine ⟨h, hs, ?_, render_meaning.1 .postgres _ h, he, render_meaning.2 .postgres _ _ h hs he⟩
  cbv

end FilterQuery.Sql
