import FilterQuery.Proofs.Schema.Path
import FilterQuery.Proofs.Sql.Token

/-!
Which fields share a column. The references of a path are joined by underscores into one alias,
and names may have underscores themselves, so two paths can name the same alias: where they part,
one has a reference whose name the other goes on with after an underscore. Everything else about
a field can be read off its column, and the column can be read off its text.
-/
namespace FilterQuery

/-- The names of references, each with an underscore in front. -/
def aliasTail (names : List String) : List Char := names.flatMap fun name => '_' :: name.toList

theorem aliasTail_cons (name : String) (names : List String) :
    aliasTail (name :: names) = '_' :: (name.toList ++ aliasTail names) := rfl

theorem underscore_alias {names : List String} (h : names ≠ []) :
    '_' :: ("_".intercalate names).toList = aliasTail names := by
  have hs : "_".toList = ['_'] := rfl
  rw [String.toList_intercalate, hs]
  induction names with
  | nil => exact absurd rfl h
  | cons name names ih =>
    cases names with
    | nil => simp [aliasTail]
    | cons next names =>
      rw [aliasTail_cons, ← ih (by simp)]
      simp [List.intercalate_cons_cons]

/-- After the names `front`, `b` has a name that begins with the one `a` has, and goes on with an
underscore and `tail`. -/
def PartAt (front : List String) (name tail : String) (a b : List String) : Prop :=
  front ++ [name] <+: a ∧ front ++ [name ++ "_" ++ tail] <+: b

theorem PartAt.cons {front a b : List String} {name tail : String} (h : PartAt front name tail a b)
    (first : String) : PartAt (first :: front) name tail (first :: a) (first :: b) := by
  simpa [PartAt] using h

/-- Two names part at the first one if the text of the other continues it. Behind the shorter one
only a further name can stand, so what continues it begins with an underscore. -/
theorem partAt_of_append {x y : String} {a b : List String} (hxy : x ≠ y) {gap : List Char}
    (hy : y.toList = x.toList ++ gap) (ha : aliasTail a = gap ++ aliasTail b) :
    ∃ tail, PartAt [] x tail (x :: a) (y :: b) := by
  cases gap with
  | nil => exact absurd (String.toList_inj.mp (by simpa using hy)) hxy.symm
  | cons c tail =>
    cases a with
    | nil => simp [aliasTail] at ha
    | cons name a =>
      rw [aliasTail_cons, List.cons_append, List.cons.injEq] at ha
      refine ⟨String.ofList tail, ⟨name :: a, rfl⟩, ⟨b, ?_⟩⟩
      have hname : x ++ "_" ++ String.ofList tail = y := by
        rw [← String.toList_inj, hy, ← ha.1]
        simp
      rw [hname]
      rfl

/-- Different lists of names with the same text part somewhere. -/
theorem partAt_of_aliasTail {a b : List String} (h : aliasTail a = aliasTail b) (hne : a ≠ b) :
    ∃ front name tail, PartAt front name tail a b ∨ PartAt front name tail b a := by
  induction a generalizing b with
  | nil =>
    cases b with
    | nil => exact absurd rfl hne
    | cons y b => simp [aliasTail] at h
  | cons x a ih =>
    cases b with
    | nil => simp [aliasTail] at h
    | cons y b =>
      rw [aliasTail_cons, aliasTail_cons, List.cons.injEq] at h
      by_cases hxy : x = y
      · subst hxy
        obtain ⟨front, name, tail, hp⟩ :=
          ih (List.append_cancel_left h.2) (fun he => hne (he ▸ rfl))
        exact ⟨x :: front, name, tail, hp.imp (·.cons x) (·.cons x)⟩
      · rcases List.append_eq_append_iff.mp h.2 with ⟨gap, hy, ha⟩ | ⟨gap, hx, hb⟩
        · obtain ⟨tail, hp⟩ := partAt_of_append hxy hy ha
          exact ⟨[], x, tail, .inl hp⟩
        · obtain ⟨tail, hp⟩ := partAt_of_append (Ne.symm hxy) hx hb
          exact ⟨[], y, tail, .inr hp⟩

namespace Schema

/-- From `root`, the references `a` and `b` lead to one entity first. There `a` goes on with a
reference, and `b` with another one whose name has the former's and an underscore in front. -/
def Forks (s : Schema) (root : Entity) (a b : List String) : Prop :=
  ∃ front name tail e, PartAt front name tail a b ∧ s.follow? root front = some e ∧
    (s.follow? e [name]).isSome ∧ (s.follow? e [name ++ "_" ++ tail]).isSome

variable {s : Schema} {root : Entity}

theorem isSome_follow?_front {front names : List String} (h : front <+: names)
    (hn : (s.follow? root names).isSome) : (s.follow? root front).isSome := by
  obtain ⟨back, rfl⟩ := h
  rw [follow?_append] at hn
  exact Option.isSome_of_isSome_bind hn

theorem follow?_snoc {e : Entity} {front : List String} {name : String}
    (he : s.follow? root front = some e) (h : (s.follow? root (front ++ [name])).isSome) :
    (s.follow? e [name]).isSome := by
  rw [follow?_append, he] at h
  exact h

/-- References that lead somewhere fork where their names part. -/
theorem forks_of_partAt {front a b : List String} {name tail : String}
    (h : PartAt front name tail a b) (ha : (s.follow? root a).isSome)
    (hb : (s.follow? root b).isSome) : s.Forks root a b := by
  have hfront : front <+: a := (List.prefix_append _ _).trans h.1
  obtain ⟨e, he⟩ := Option.isSome_iff_exists.mp (isSome_follow?_front hfront ha)
  exact ⟨front, name, tail, e, h, he, follow?_snoc he (isSome_follow?_front h.1 ha),
    follow?_snoc he (isSome_follow?_front h.2 hb)⟩

theorem isSome_follow?_of_resolve {path : FieldPath} (h : (s.resolve? root path).isSome) :
    (s.follow? root path.parents).isSome := by
  rw [resolve?_eq] at h
  exact Option.isSome_of_isSome_bind h

end Schema

namespace Sql

/-- A column can be read off its text. -/
theorem Column.write_injective (d : Dialect) : Function.Injective (Column.write d) := by
  intro c c' h
  have hlex (c : Column) : lex d (c.write d) = some c.tokens := by
    simpa using lexes_column d c [] ends_nil
  have ht : c.tokens = c'.tokens := by
    have hs := hlex c
    rw [h, hlex c'] at hs
    exact (Option.some.inj hs).symm
  obtain ⟨q, name⟩ := c
  obtain ⟨q', name'⟩ := c'
  cases q <;> cases q' <;> simp_all [Column.tokens]

theorem Column.ofField_of_nested {p : FieldPath} (h : p.isNested = true) :
    Column.ofField p = ⟨some ("_".intercalate p.parents), p.leaf⟩ := by
  rw [ofField, if_pos h]

theorem Column.ofField_of_not_nested {p : FieldPath} (h : ¬p.isNested = true) :
    Column.ofField p = ⟨none, p.text⟩ := by
  rw [ofField, if_neg h]

/-- Two fields behind references end in the same name, and the references have the same alias
though they fork. -/
structure SharesAlias (s : Schema) (root : Entity) (p q : FieldPath) : Prop where
  nested : p.isNested = true ∧ q.isNested = true
  leaf : p.leaf = q.leaf
  names : "_".intercalate p.parents = "_".intercalate q.parents
  forks : s.Forks root p.parents q.parents ∨ s.Forks root q.parents p.parents

variable {s : Schema} {root : Entity} {p q : FieldPath}

/-- The references of different fields fork if they have the same alias and the fields the same
name. -/
theorem forks_of_alias (hp : (s.resolve? root p).isSome) (hq : (s.resolve? root q).isSome)
    (hne : p ≠ q) (hn : p.isNested = true ∧ q.isNested = true) (hl : p.leaf = q.leaf)
    (ha : "_".intercalate p.parents = "_".intercalate q.parents) :
    s.Forks root p.parents q.parents ∨ s.Forks root q.parents p.parents := by
  have hparents : p.parents ≠ q.parents := by
    intro he
    refine hne (FieldPath.eq_of_segments ?_)
    rw [← p.parents_append_leaf, ← q.parents_append_leaf, he, hl]
  have htail : aliasTail p.parents = aliasTail q.parents := by
    rw [← underscore_alias (p.isNested_iff.mp hn.1), ← underscore_alias (q.isNested_iff.mp hn.2),
      ha]
  have hfp := Schema.isSome_follow?_of_resolve hp
  have hfq := Schema.isSome_follow?_of_resolve hq
  obtain ⟨front, name, tail, h | h⟩ := partAt_of_aliasTail htail hparents
  · exact .inl (Schema.forks_of_partAt h hfp hfq)
  · exact .inr (Schema.forks_of_partAt h hfq hfp)

/-- Different fields that resolve have different columns, and different texts of them in every
dialect, unless their references share an alias. -/
theorem column_ofField (s : Schema) (root : Entity) {p q : FieldPath}
    (hp : (s.resolve? root p).isSome) (hq : (s.resolve? root q).isSome) (hne : p ≠ q) :
    (Column.ofField p = Column.ofField q ↔ SharesAlias s root p q) ∧
      ∀ d, (Column.ofField p).write d = (Column.ofField q).write d ↔ SharesAlias s root p q := by
  have hcolumn : Column.ofField p = Column.ofField q ↔ SharesAlias s root p q := by
    constructor
    · intro h
      by_cases hpn : p.isNested = true <;> by_cases hqn : q.isNested = true
      · rw [Column.ofField_of_nested hpn, Column.ofField_of_nested hqn, Column.mk.injEq,
          Option.some.injEq] at h
        exact ⟨⟨hpn, hqn⟩, h.2, h.1, forks_of_alias hp hq hne ⟨hpn, hqn⟩ h.2 h.1⟩
      · rw [Column.ofField_of_nested hpn, Column.ofField_of_not_nested hqn] at h
        cases congrArg Column.qualifier h
      · rw [Column.ofField_of_not_nested hpn, Column.ofField_of_nested hqn] at h
        cases congrArg Column.qualifier h
      · rw [Column.ofField_of_not_nested hpn, Column.ofField_of_not_nested hqn] at h
        exact absurd (congrArg (FieldPath.mk ·.name) h) hne
    · intro h
      rw [Column.ofField_of_nested h.nested.1, Column.ofField_of_nested h.nested.2, h.names, h.leaf]
  refine ⟨hcolumn, fun d => ?_⟩
  rw [← hcolumn]
  exact (Column.write_injective d).eq_iff

/-- An entity with two references to the same one, over `a` and `b` and over `a_b`. -/
def sampleForks : Schema :=
  ⟨[⟨"u", [⟨"a", .string, some "v"⟩, ⟨"a_b", .string, some "w"⟩]⟩,
    ⟨"v", [⟨"b", .string, some "w"⟩]⟩, ⟨"w", [⟨"x", .string, none⟩, ⟨"y", .string, none⟩]⟩]⟩

def sampleRoot : Entity := ⟨"u", [⟨"a", .string, some "v"⟩, ⟨"a_b", .string, some "w"⟩]⟩

/-- Different fields of a well-formed schema can have the same column. -/
theorem not_injective_ofField :
    sampleForks.validate = .ok () ∧ sampleForks.entity? "u" = some sampleRoot ∧
      (sampleForks.resolve? sampleRoot ⟨"a.b.x"⟩).isSome ∧
      (sampleForks.resolve? sampleRoot ⟨"a_b.x"⟩).isSome ∧
      (⟨"a.b.x"⟩ : FieldPath) ≠ ⟨"a_b.x"⟩ ∧
      Column.ofField ⟨"a.b.x"⟩ = Column.ofField ⟨"a_b.x"⟩ := by
  decide

theorem column_sampleForks :
    (sampleForks.resolve? sampleRoot ⟨"a.b.x"⟩).isSome ∧
      (sampleForks.resolve? sampleRoot ⟨"a_b.x"⟩).isSome ∧
      (sampleForks.resolve? sampleRoot ⟨"a_b.y"⟩).isSome ∧
      SharesAlias sampleForks sampleRoot ⟨"a.b.x"⟩ ⟨"a_b.x"⟩ ∧
      Column.ofField ⟨"a.b.x"⟩ ≠ Column.ofField ⟨"a_b.y"⟩ ∧
      (Column.ofField ⟨"a.b.x"⟩).write .postgres ≠ (Column.ofField ⟨"a_b.y"⟩).write .postgres := by
  have hx : (sampleForks.resolve? sampleRoot ⟨"a.b.x"⟩).isSome := by decide
  have hx' : (sampleForks.resolve? sampleRoot ⟨"a_b.x"⟩).isSome := by decide
  have hy : (sampleForks.resolve? sampleRoot ⟨"a_b.y"⟩).isSome := by decide
  have hshared := (column_ofField sampleForks sampleRoot hx hx' (by decide)).1.mp (by decide)
  have hother := column_ofField sampleForks sampleRoot hx hy (by decide)
  have hnot : ¬SharesAlias sampleForks sampleRoot ⟨"a.b.x"⟩ ⟨"a_b.y"⟩ := by
    intro h
    exact absurd h.leaf (by decide)
  exact ⟨hx, hx', hy, hshared, mt hother.1.mp hnot, mt (hother.2 _).mp hnot⟩

end Sql

end FilterQuery
