import FilterQuery.Filter.Json
import FilterQuery.Proofs.Value.Json

/-!
Filter trees are read back from their JSON form, in which the fields of a node may stand in any
order. The form of a tree is nested no deeper than the document it was read from, so it is within
the limit of the reader whenever that document was.
-/
namespace FilterQuery

namespace Json

theorem depthItems_le_iff {js : List Json} {n : Nat} :
    depthItems js ≤ n ↔ ∀ j ∈ js, j.depth ≤ n := by
  induction js with
  | nil => simp [depthItems]
  | cons j js ih => simp [depthItems, ih]

theorem depthFields_le_iff {fs : List (FieldName × Json)} {n : Nat} :
    depthFields fs ≤ n ↔ ∀ f ∈ fs, f.2.depth ≤ n := by
  induction fs with
  | nil => simp [depthFields]
  | cons f fs ih => simp only [depthFields, Nat.max_le, ih, List.forall_mem_cons]

theorem depth_lt_of_mem_items {js : List Json} {j : Json} (h : j ∈ js) :
    j.depth < (Json.array js).depth :=
  Nat.lt_succ_of_le (depthItems_le_iff.mp (Nat.le_refl _) j h)

theorem depth_lt_of_mem_fields {fs : List (FieldName × Json)} {f : FieldName × Json}
    (h : f ∈ fs) : f.2.depth < (Json.object fs).depth :=
  Nat.lt_succ_of_le (depthFields_le_iff.mp (Nat.le_refl _) f h)

variable {fs gs : List (FieldName × Json)}

/-- The order of fields does not matter to their names. -/
theorem uniqueField?_perm (h : fs.Perm gs) (name : String) :
    uniqueField? fs name = uniqueField? gs name := by
  have hnamed := h.filter (·.1.text = name)
  rw [uniqueField?, uniqueField?]
  generalize fs.filter (·.1.text = name) = named, gs.filter (·.1.text = name) = named' at hnamed
  cases named with
  | nil => rw [List.nil_perm.mp hnamed]
  | cons f rest =>
    cases rest with
    | nil => rw [List.singleton_perm.mp hnamed]
    | cons g rest =>
      have hlength := hnamed.length_eq
      match named', hlength with
      | _ :: _ :: _, _ => rfl

theorem record?_perm (h : fs.Perm gs) (names : List String) :
    record? names (.object fs) = record? names (.object gs) := by
  have hfield : uniqueField? fs = uniqueField? gs := funext (uniqueField?_perm h)
  rw [record?, record?, hfield]

theorem plainFields_perm (h : fs.Perm gs) (hgs : PlainFields gs) : PlainFields fs := by
  rw [plainFields_iff] at hgs ⊢
  exact fun f hf => hgs f (h.mem_iff.mp hf)

theorem mem_of_uniqueField? {name : String} {v : Json} (h : uniqueField? fs name = some (some v)) :
    ∃ f ∈ fs, f.2 = v := by
  rw [uniqueField?] at h
  split at h
  · cases h
  · next f hnamed =>
    have hf : f ∈ fs.filter (·.1.text = name) := by simp [hnamed]
    exact ⟨f, List.mem_of_mem_filter hf, Option.some.inj (Option.some.inj h)⟩
  · cases h

theorem exists_of_mem_mapM {α β : Type} {f : α → Option β} {xs : List α} {ys : List β}
    (h : xs.mapM f = some ys) : ∀ y ∈ ys, ∃ x ∈ xs, f x = some y := by
  induction xs generalizing ys with
  | nil =>
    obtain rfl := Option.some.inj h
    exact List.forall_mem_nil _
  | cons x xs ih =>
    rw [List.mapM_cons] at h
    obtain ⟨y, hy, h⟩ := Option.bind_eq_some_iff.mp h
    obtain ⟨rest, hrest, h⟩ := Option.bind_eq_some_iff.mp h
    obtain rfl := Option.some.inj h
    have hlater : ∀ z ∈ rest, ∃ w ∈ x :: xs, f w = some z := by
      intro z hz
      obtain ⟨w, hw, hz⟩ := ih hrest z hz
      exact ⟨w, List.mem_cons_of_mem x hw, hz⟩
    exact List.forall_mem_cons.mpr ⟨⟨x, List.mem_cons_self, hy⟩, hlater⟩

/-- What is in a record lies within it. -/
theorem depth_lt_of_record? {names : List String} {j : Json} {vs : List (Option Json)}
    (h : j.record? names = some vs) {v : Json} (hv : some v ∈ vs) : v.depth < j.depth := by
  cases j with
  | object fs =>
    obtain ⟨name, -, hname⟩ := exists_of_mem_mapM h (some v) hv
    obtain ⟨f, hf, rfl⟩ := mem_of_uniqueField? hname
    exact depth_lt_of_mem_fields hf
  | array items =>
    rw [record?] at h
    split at h
    · obtain rfl := Option.some.inj h
      have hitem : v ∈ items := by simpa using hv
      exact depth_lt_of_mem_items hitem
    · cases h
  | _ => cases h

theorem list?_eq_some {α : Type} {item? : Json → Option α} {j : Json} {xs : List α}
    (h : j.list? item? = some xs) : ∃ items, j = .array items ∧ items.mapM item? = some xs := by
  cases j with
  | array items => exact ⟨items, rfl, h⟩
  | _ => cases h

end Json

namespace FilterTree

/-- Two trees of the same structure with the same parts, where a decimal is the number it stands
for. -/
inductive Same : FilterTree → FilterTree → Prop where
  | all {ts us : List FilterTree} (h : List.Forall₂ Same ts us) : Same (.all ts) (.all us)
  | any {ts us : List FilterTree} (h : List.Forall₂ Same ts us) : Same (.any ts) (.any us)
  | negate {t u : FilterTree} (h : Same t u) : Same (.negate t) (.negate u)
  | compare (field : FieldPath) (op : Operator) {v w : Value} (h : v.Same w) :
      Same (.compare field op v) (.compare field op w)
  | search (field : FieldPath) (mode : SearchMode) (word : String) :
      Same (.search field mode word) (.search field mode word)

mutual

/-- No comparison with a floating-point number. -/
def HasNoFloat : FilterTree → Prop
  | .all children => HaveNoFloat children
  | .any children => HaveNoFloat children
  | .negate child => HasNoFloat child
  | .compare _ _ value => value.HasNoFloat
  | .search _ _ _ => True

def HaveNoFloat : List FilterTree → Prop
  | [] => True
  | t :: ts => HasNoFloat t ∧ HaveNoFloat ts

end

/-- The JSON form of a tree with the fields of each node in any order. -/
inductive Spelled : FilterTree → Json → Prop where
  | all {ts : List FilterTree} {js : List Json} {fields : List (FieldName × Json)}
      (h : List.Forall₂ Spelled ts js)
      (hfields : fields.Perm [("kind", .string "and"), ("children", .array js)]) :
      Spelled (.all ts) (.object fields)
  | any {ts : List FilterTree} {js : List Json} {fields : List (FieldName × Json)}
      (h : List.Forall₂ Spelled ts js)
      (hfields : fields.Perm [("kind", .string "or"), ("children", .array js)]) :
      Spelled (.any ts) (.object fields)
  | negate {t : FilterTree} {j : Json} {fields : List (FieldName × Json)} (h : Spelled t j)
      (hfields : fields.Perm [("kind", .string "not"), ("child", j)]) :
      Spelled (.negate t) (.object fields)
  | compare {field : FieldPath} {op : Operator} {value : Value}
      {fields : List (FieldName × Json)}
      (hfields : fields.Perm [("kind", .string "compare"), ("field", .string field.text),
        ("operator", .string op.name), ("value", value.toJson)]) :
      Spelled (.compare field op value) (.object fields)
  | search {field : FieldPath} {mode : SearchMode} {word : String}
      {fields : List (FieldName × Json)}
      (hfields : fields.Perm [("kind", .string "search"), ("field", .string field.text),
        ("mode", .string mode.name), ("word", .string word)]) :
      Spelled (.search field mode word) (.object fields)

mutual

/-- The writer has the kind in front. -/
theorem toJson_spelled : ∀ t : FilterTree, Spelled t t.toJson
  | .all children => .all (toJsonList_spelled children) (.refl _)
  | .any children => .any (toJsonList_spelled children) (.refl _)
  | .negate child => .negate (toJson_spelled child) (.refl _)
  | .compare _ _ _ => .compare (.refl _)
  | .search _ _ _ => .search (.refl _)

theorem toJsonList_spelled : ∀ ts : List FilterTree, List.Forall₂ Spelled ts (toJsonList ts)
  | [] => .nil
  | t :: ts => .cons (toJson_spelled t) (toJsonList_spelled ts)

end

mutual

theorem Spelled.isPlain : ∀ {t : FilterTree} {j : Json}, Spelled t j → t.HasNoFloat → j.IsPlain
  | .all _, _, .all h hfields, hfloat =>
    Json.plainFields_perm hfields
      ⟨⟨by decide, trivial⟩, ⟨by decide, plainItems_of_spelled h hfloat⟩, trivial⟩
  | .any _, _, .any h hfields, hfloat =>
    Json.plainFields_perm hfields
      ⟨⟨by decide, trivial⟩, ⟨by decide, plainItems_of_spelled h hfloat⟩, trivial⟩
  | .negate _, _, .negate h hfields, hfloat =>
    Json.plainFields_perm hfields
      ⟨⟨by decide, trivial⟩, ⟨by decide, h.isPlain hfloat⟩, trivial⟩
  | .compare _ _ _, _, .compare hfields, hfloat =>
    Json.plainFields_perm hfields ⟨⟨by decide, trivial⟩, ⟨by decide, trivial⟩,
      ⟨by decide, trivial⟩, ⟨by decide, Value.toJson_isPlain hfloat⟩, trivial⟩
  | .search _ _ _, _, .search hfields, _ =>
    Json.plainFields_perm hfields ⟨⟨by decide, trivial⟩, ⟨by decide, trivial⟩,
      ⟨by decide, trivial⟩, ⟨by decide, trivial⟩, trivial⟩

theorem plainItems_of_spelled : ∀ {ts : List FilterTree} {js : List Json},
    List.Forall₂ Spelled ts js → HaveNoFloat ts → Json.PlainItems js
  | [], _, .nil, _ => trivial
  | _ :: _, _, .cons h hs, hfloat => ⟨h.isPlain hfloat.1, plainItems_of_spelled hs hfloat.2⟩

end

variable {fields parts : List (FieldName × Json)} {kind : String} {k : Kind}

/-- The kind of a node is found wherever it stands. -/
theorem splitKind?_of_perm (hkind : Kind.ofName? kind = some k)
    (hparts : ∀ f ∈ parts, f.1.text ≠ "kind")
    (hfields : fields.Perm (("kind", .string kind) :: parts)) (inner : Bool) :
    ∃ rest, rest.Perm parts ∧ splitKind? inner (.object fields) = some (k, .object rest) := by
  have hnone : parts.filter (·.1.text = "kind") = [] := by
    rw [List.filter_eq_nil_iff]
    simpa using hparts
  have hall : parts.filter (·.1.text ≠ "kind") = parts := by
    rw [List.filter_eq_self]
    simpa using hparts
  have hnamed := hfields.filter (·.1.text = "kind")
  have hrest := hfields.filter (·.1.text ≠ "kind")
  rw [List.filter_cons_of_pos (by simp), hnone, List.perm_singleton] at hnamed
  rw [List.filter_cons_of_neg (by simp), hall] at hrest
  refine ⟨_, hrest, ?_⟩
  simp only [splitKind?, hnamed, Kind.ofJson?, hkind, Option.map_some]

/-- A node is read from its kind and the record of its parts, whatever the order of its fields. -/
theorem splitKind?_record? (hkind : Kind.ofName? kind = some k)
    (hparts : ∀ f ∈ parts, f.1.text ≠ "kind")
    (hfields : fields.Perm (("kind", .string kind) :: parts)) (inner : Bool) :
    ∃ rest, splitKind? inner (.object fields) = some (k, rest) ∧
      ∀ names, rest.record? names = (Json.object parts).record? names := by
  obtain ⟨rest, hperm, hsplit⟩ := splitKind?_of_perm hkind hparts hfields inner
  exact ⟨.object rest, hsplit, Json.record?_perm hperm⟩

theorem compareOfJson?_record {parts : Json} {field : FieldPath} {op : Operator} {v w : Value}
    (hparts : parts.record? ["field", "operator", "value"] =
      some [some (.string field.text), some (.string op.name), some v.toJson])
    (hv : Value.ofJson? v.toJson = some w) :
    compareOfJson? parts = some (.compare field op w) := by
  have hop : emptyVariant? (.string op.name) = some op.name := rfl
  rw [compareOfJson?, hparts]
  simp only [Json.string?, hop, Operator.ofName?_name, hv, Option.bind_eq_bind, Option.bind_some]
  rfl

theorem searchOfJson?_record {parts : Json} {field : FieldPath} {mode : SearchMode}
    {word : String}
    (hparts : parts.record? ["field", "mode", "word"] =
      some [some (.string field.text), some (.string mode.name), some (.string word)]) :
    searchOfJson? parts = some (.search field mode word) := by
  have hmode : emptyVariant? (.string mode.name) = some mode.name := rfl
  rw [searchOfJson?, hparts]
  simp only [Json.string?, hmode, SearchMode.ofName?_name, Option.bind_eq_bind, Option.bind_some]
  rfl

/-- The children of a node are two containers further in. -/
theorem depth_lt_of_mem_children {js : List Json} {name : FieldName} {levels : Nat}
    (hmem : (name, Json.array js) ∈ fields) (h : (Json.object fields).depth < levels + 1) :
    ∀ j ∈ js, j.depth < levels := by
  intro j hj
  have harray := Json.depth_lt_of_mem_fields hmem
  have hitem := Json.depth_lt_of_mem_items hj
  dsimp only at harray
  omega

mutual

/-- A tree is read from its JSON form if that is not too deep. -/
theorem Spelled.ofJsonWithin? : ∀ {t : FilterTree} {j : Json}, Spelled t j → t.HasNoFloat →
    ∀ {levels : Nat} (inner : Bool), j.depth < levels →
      ∃ u, FilterTree.ofJsonWithin? levels inner j = some u ∧ t.Same u
  | .all _, _, @Spelled.all _ js _ h hfields, hfloat, levels + 1, inner, hdepth => by
    have hmem := hfields.mem_iff.mpr (.tail _ (.head []))
    obtain ⟨us, hread, hsame⟩ :=
      ofJsonWithin?_of_spelled h hfloat (depth_lt_of_mem_children hmem hdepth)
    obtain ⟨parts, hsplit, hparts⟩ := splitKind?_record? rfl (by simp) hfields inner
    have hrecord : parts.record? ["children"] = some [some (.array js)] := hparts _
    refine ⟨.all us, ?_, .all hsame⟩
    simp [FilterTree.ofJsonWithin?, hsplit, hrecord, Json.list?, Json.items?, hread]
  | .any _, _, @Spelled.any _ js _ h hfields, hfloat, levels + 1, inner, hdepth => by
    have hmem := hfields.mem_iff.mpr (.tail _ (.head []))
    obtain ⟨us, hread, hsame⟩ :=
      ofJsonWithin?_of_spelled h hfloat (depth_lt_of_mem_children hmem hdepth)
    obtain ⟨parts, hsplit, hparts⟩ := splitKind?_record? rfl (by simp) hfields inner
    have hrecord : parts.record? ["children"] = some [some (.array js)] := hparts _
    refine ⟨.any us, ?_, .any hsame⟩
    simp [FilterTree.ofJsonWithin?, hsplit, hrecord, Json.list?, Json.items?, hread]
  | .negate _, _, @Spelled.negate _ j _ h hfields, hfloat, levels + 1, inner, hdepth => by
    have hchild := Json.depth_lt_of_mem_fields (hfields.mem_iff.mpr (.tail _ (.head [])))
    dsimp only at hchild
    obtain ⟨u, hread, hsame⟩ := h.ofJsonWithin? hfloat true (show j.depth < levels by omega)
    obtain ⟨parts, hsplit, hparts⟩ := splitKind?_record? rfl (by simp) hfields inner
    have hrecord : parts.record? ["child"] = some [some j] := hparts _
    refine ⟨.negate u, ?_, .negate hsame⟩
    simp [FilterTree.ofJsonWithin?, hsplit, hrecord, hread]
  | .compare field op value, _, .compare hfields, hfloat, levels + 1, inner, _ => by
    obtain ⟨w, hvalue, hsame⟩ := Value.ofJson?_toJson hfloat
    obtain ⟨parts, hsplit, hparts⟩ := splitKind?_record? rfl (by simp) hfields inner
    have hread : compareOfJson? parts = some (.compare field op w) :=
      compareOfJson?_record (hparts _) hvalue
    refine ⟨.compare field op w, ?_, .compare field op hsame⟩
    simp [FilterTree.ofJsonWithin?, hsplit, hread]
  | .search field mode word, _, .search hfields, _, levels + 1, inner, _ => by
    obtain ⟨parts, hsplit, hparts⟩ := splitKind?_record? rfl (by simp) hfields inner
    have hread : searchOfJson? parts = some (.search field mode word) :=
      searchOfJson?_record (hparts _)
    refine ⟨.search field mode word, ?_, .search field mode word⟩
    simp [FilterTree.ofJsonWithin?, hsplit, hread]

theorem ofJsonWithin?_of_spelled : ∀ {ts : List FilterTree} {js : List Json},
    List.Forall₂ Spelled ts js → HaveNoFloat ts → ∀ {levels : Nat},
    (∀ j ∈ js, j.depth < levels) →
      ∃ us, js.mapM (FilterTree.ofJsonWithin? levels true) = some us ∧ List.Forall₂ Same ts us
  | [], _, .nil, _, _, _ => ⟨[], rfl, .nil⟩
  | _ :: _, _, .cons h hs, hfloat, levels, hdepth => by
    rw [List.forall_mem_cons] at hdepth
    obtain ⟨u, hread, hsame⟩ := h.ofJsonWithin? hfloat.1 true hdepth.1
    obtain ⟨us, hreads, hsames⟩ := ofJsonWithin?_of_spelled hs hfloat.2 hdepth.2
    exact ⟨u :: us, by simp [hread, hreads], .cons hsame hsames⟩

end

theorem toJsonList_eq_map (ts : List FilterTree) : toJsonList ts = ts.map toJson := by
  induction ts with
  | nil => rfl
  | cons t ts ih => rw [toJsonList, ih, List.map_cons]

/-- The parts of a node are nested no deeper than the node. -/
theorem depth_le_of_splitKind? {inner : Bool} {j parts : Json}
    (h : splitKind? inner j = some (k, parts)) : parts.depth ≤ j.depth := by
  cases j with
  | object fields =>
    rw [splitKind?] at h
    split at h
    · obtain ⟨_, -, hpair⟩ := Option.map_eq_some_iff.mp h
      cases hpair
      apply Nat.succ_le_succ
      rw [Json.depthFields_le_iff]
      intro f hf
      exact Json.depthFields_le_iff.mp (Nat.le_refl _) f (List.mem_of_mem_filter hf)
    · cases h
  | array items =>
    rw [splitKind?.eq_def] at h
    cases items with
    | nil => cases h
    | cons first items =>
      obtain ⟨_, -, hpair⟩ := Option.map_eq_some_iff.mp h
      cases hpair
      exact Nat.succ_le_succ (Nat.le_max_right _ _)
  | _ => cases h

variable {read? : Json → Option FilterTree} {parts : Json}

theorem depth_children_le (hread : ∀ j t, read? j = some t → t.toJson.depth ≤ j.depth)
    {children : Json} {ts : List FilterTree}
    (hrecord : parts.record? ["children"] = some [some children])
    (h : children.list? read? = some ts) : (Json.array (toJsonList ts)).depth < parts.depth := by
  have hchildren := Json.depth_lt_of_record? hrecord List.mem_cons_self
  obtain ⟨items, rfl, hitems⟩ := Json.list?_eq_some h
  have hle : Json.depthItems (toJsonList ts) ≤ Json.depthItems items := by
    rw [Json.depthItems_le_iff, toJsonList_eq_map, List.forall_mem_map]
    intro t ht
    obtain ⟨j, hj, hjt⟩ := Json.exists_of_mem_mapM hitems t ht
    exact (hread j t hjt).trans (Json.depthItems_le_iff.mp (Nat.le_refl _) j hj)
  simp only [Json.depth] at hchildren ⊢
  omega

theorem depth_le_of_compareOfJson? {t : FilterTree} (h : compareOfJson? parts = some t) :
    t.toJson.depth ≤ parts.depth := by
  rw [compareOfJson?] at h
  split at h
  · next field op value hrecord =>
    obtain ⟨name, -, h⟩ := Option.bind_eq_some_iff.mp h
    obtain ⟨o, -, h⟩ := Option.bind_eq_some_iff.mp h
    obtain ⟨v, hv, h⟩ := Option.bind_eq_some_iff.mp h
    obtain rfl := Option.some.inj h
    have hin := Json.depth_lt_of_record? hrecord (.tail _ (.tail _ (.head _)))
    have hvalue := Value.depth_toJson_le_of_ofJson? hv
    simp only [toJson, Json.depth, Json.depthFields]
    omega
  · cases h

theorem depth_le_of_searchOfJson? {t : FilterTree} (h : searchOfJson? parts = some t) :
    t.toJson.depth ≤ parts.depth := by
  rw [searchOfJson?] at h
  split at h
  · next field mode word hrecord =>
    obtain ⟨name, -, h⟩ := Option.bind_eq_some_iff.mp h
    obtain ⟨m, -, h⟩ := Option.bind_eq_some_iff.mp h
    obtain ⟨w, -, h⟩ := Option.bind_eq_some_iff.mp h
    obtain rfl := Option.some.inj h
    have hin := Json.depth_lt_of_record? hrecord (.head _)
    simp only [toJson, Json.depth, Json.depthFields]
    omega
  · cases h

/-- The JSON form of a tree is nested no deeper than the document it was read from. -/
theorem depth_toJson_le {levels : Nat} {inner : Bool} {j : Json} {t : FilterTree}
    (h : ofJsonWithin? levels inner j = some t) : t.toJson.depth ≤ j.depth := by
  induction levels generalizing inner j t with
  | zero => cases h
  | succ levels ih =>
    have hread : ∀ j t, ofJsonWithin? levels true j = some t → t.toJson.depth ≤ j.depth :=
      fun _ _ => ih
    rw [ofJsonWithin?] at h
    obtain ⟨⟨kind, parts⟩, hsplit, h⟩ := Option.bind_eq_some_iff.mp h
    have hparts := depth_le_of_splitKind? hsplit
    refine Nat.le_trans ?_ hparts
    cases kind with
    | all | any =>
      dsimp only at h
      split at h
      · next children hrecord =>
        obtain ⟨ts, hts, rfl⟩ := Option.map_eq_some_iff.mp h
        have hchildren := depth_children_le hread hrecord hts
        simpa [toJson, Json.depth, Json.depthFields] using hchildren
      · cases h
    | negate =>
      dsimp only at h
      split at h
      · next child hrecord =>
        obtain ⟨u, hu, rfl⟩ := Option.map_eq_some_iff.mp h
        have hchild := Json.depth_lt_of_record? hrecord (.head _)
        have hle := hread _ _ hu
        simp only [toJson, Json.depth, Json.depthFields]
        omega
      · cases h
    | compare => exact depth_le_of_compareOfJson? h
    | search => exact depth_le_of_searchOfJson? h

variable {t : FilterTree} {j : Json} {source : String}

theorem Spelled.ofJson? (h : Spelled t j) (hfloat : t.HasNoFloat) (hdepth : j.depth ≤ depthLimit) :
    ∃ u, t.Same u ∧ FilterTree.ofJson? j = some u := by
  obtain ⟨u, hread, hsame⟩ := h.ofJsonWithin? hfloat false (Nat.lt_succ_of_le hdepth)
  refine ⟨u, hsame, ?_⟩
  rw [FilterTree.ofJson?, (h.isPlain hfloat).isReadable, decide_eq_true hdepth]
  exact hread

theorem depth_toJson_le_of_read? (h : FilterTree.read? source = some t) :
    t.toJson.depth ≤ depthLimit := by
  obtain ⟨j, -, h⟩ := Option.bind_eq_some_iff.mp h
  rw [FilterTree.ofJson?] at h
  split at h
  · next hlimit =>
    have hdepth : j.depth ≤ depthLimit := by simpa using (Bool.and_eq_true_iff.mp hlimit).2
    exact (depth_toJson_le h).trans hdepth
  · cases h

/-- Trees without floating-point numbers survive their JSON form, both as it is written and with
the fields of its nodes in any other order, as long as it is within the depth the reader takes.
A tree that was read from a document of any form is written within that depth, and read back. -/
theorem read?_toJson :
    (∀ t : FilterTree, Spelled t t.toJson) ∧
    (∀ (t : FilterTree) (j : Json), Spelled t j → t.HasNoFloat → j.depth ≤ depthLimit →
      ∃ u, t.Same u ∧ FilterTree.read? j.compact = some u ∧
        FilterTree.read? j.pretty = some u) ∧
    ∀ (source : String) (t : FilterTree), FilterTree.read? source = some t → t.HasNoFloat →
      ∃ u, t.Same u ∧ FilterTree.read? t.toJson.compact = some u ∧
        FilterTree.read? t.toJson.pretty = some u := by
  have hspelled : ∀ (t : FilterTree) (j : Json), Spelled t j → t.HasNoFloat →
      j.depth ≤ depthLimit →
      ∃ u, t.Same u ∧ FilterTree.read? j.compact = some u ∧
        FilterTree.read? j.pretty = some u := by
    intro t j h hfloat hdepth
    have hplain := h.isPlain hfloat
    obtain ⟨u, hsame, hread⟩ := h.ofJson? hfloat hdepth
    refine ⟨u, hsame, ?_, ?_⟩
    · rw [FilterTree.read?, Json.read?_compact hplain, Option.bind_some, hread]
    · rw [FilterTree.read?, Json.read?_pretty hplain, Option.bind_some, hread]
  refine ⟨toJson_spelled, hspelled, ?_⟩
  intro source t h hfloat
  exact hspelled t t.toJson t.toJson_spelled hfloat (depth_toJson_le_of_read? h)

def sampleDecimal : FilterTree :=
  .all [.negate (.compare ⟨"n"⟩ .lessOrEqual (.decimal ⟨150, 2⟩)), .any []]

/-- The JSON form of the sample with each kind behind a part. -/
def sampleMoved : Json :=
  .object [("children", .array
    [.object [("child", .object [("field", .string "n"), ("kind", .string "compare"),
        ("operator", .string "less_or_equal"), ("value", (Value.decimal ⟨150, 2⟩).toJson)]),
        ("kind", .string "not")],
      .object [("children", .array []), ("kind", .string "or")]]), ("kind", .string "and")]

theorem sampleMoved_spelled : Spelled sampleDecimal sampleMoved := by
  refine .all (.cons (.negate ?_ (.swap _ _ _)) (.cons (.any .nil (.swap _ _ _)) .nil)) (.swap _ _ _)
  exact .compare (.swap _ _ _)

/-- A search word beside its kind, inside an array that gives its own kind by a number. -/
def sampleArrays : String :=
  "[\"or\",[[2,\x7b\"word\":\"x*\",\"mode\":\x7b\"like\":null\x7d,\"field\":\"a\",\"kind\":4\x7d]]]"

def sampleWord : FilterTree := .any [.negate (.search ⟨"a"⟩ .like "x*")]

theorem read?_toJson_samples :
    Spelled sampleDecimal sampleMoved ∧ sampleDecimal.HasNoFloat ∧ sampleMoved.depth ≤ depthLimit ∧
      (∃ u, sampleDecimal.Same u ∧ FilterTree.read? sampleMoved.compact = some u) ∧
      FilterTree.read? sampleArrays = some sampleWord ∧ sampleWord.HasNoFloat ∧
      ∃ u, sampleWord.Same u ∧ FilterTree.read? sampleWord.toJson.compact = some u := by
  have hdecimal : sampleDecimal.HasNoFloat := ⟨trivial, trivial, trivial⟩
  have hdepth : sampleMoved.depth ≤ depthLimit := by decide
  have hword : sampleWord.HasNoFloat := ⟨trivial, trivial⟩
  have hread : FilterTree.read? sampleArrays = some sampleWord := by cbv
  obtain ⟨-, hspelled, hagain⟩ := read?_toJson
  obtain ⟨u, hsame, hcompact, -⟩ := hspelled _ _ sampleMoved_spelled hdecimal hdepth
  obtain ⟨v, hsame', hcompact', -⟩ := hagain _ _ hread hword
  exact ⟨sampleMoved_spelled, hdecimal, hdepth, ⟨u, hsame, hcompact⟩, hread, hword,
    ⟨v, hsame', hcompact'⟩⟩

end FilterTree

end FilterQuery
