import FilterQuery.Proofs.Config.Origin
import FilterQuery.Proofs.Sql.Placeholders
import FilterQuery.Proofs.Sql.RoundTrip
import FilterQuery.Proofs.Text.Split
import FilterQuery.Proofs.Value.Display

/-!
The lines of a printed statement. The condition stands on the first line, and each parameter has a
comment line of its own, unless its text has a line break: the rest of the text then stands on a
line that is no comment. Only the query and the constants of the schema bring line breaks.
-/
namespace FilterQuery

namespace Sql

/-- The comment line of a parameter, by its index from 0. -/
def comment (v : Value) (i : Nat) : String :=
  "-- " ++ String.ofList (Digits.write (i + 1)) ++ ": " ++ v.display

theorem lineBreak_mem_comment {v : Value} {i : Nat} :
    '\n' ∈ (comment v i).toList ↔ '\n' ∈ v.display.toList := by
  have hnumber : '\n' ∉ Digits.write (i + 1) := by
    intro h
    cases Digits.not_isBlank_of_mem_write _ _ h
  have hdashes : '\n' ∉ "-- ".toList := by decide
  have hcolon : '\n' ∉ ": ".toList := by decide
  simp only [comment, String.toList_append, String.toList_ofList, List.mem_append, hnumber, hdashes,
    hcolon, or_false, false_or]

namespace Statement

/-- The comment lines of a statement. -/
def comments (s : Statement) : List String := s.params.zipIdx.map fun (v, i) => comment v i

theorem lines_display (s : Statement) :
    Text.lines s.display = (s.sql :: s.comments).flatMap Text.lines :=
  Text.lines_intercalate s.sql s.comments

theorem length_comments (s : Statement) : s.comments.length = s.params.length := by
  rw [comments, List.length_map, List.length_zipIdx]

/-- A comment has a line break where its parameter has one. -/
theorem forall_comments_iff (s : Statement) :
    (∀ c ∈ s.comments, '\n' ∉ c.toList) ↔ ∀ v ∈ s.params, '\n' ∉ v.display.toList := by
  have hparams : s.params.zipIdx.map Prod.fst = s.params := List.zipIdx_map_fst 0 s.params
  rw [comments, List.forall_mem_map]
  conv_rhs => rw [← hparams, List.forall_mem_map]
  exact forall₂_congr fun _ _ => not_congr lineBreak_mem_comment

/-- A condition without a line break is followed by a comment line for each parameter, just when
no parameter has a line break, and the number of lines tells. -/
theorem lines_display_iff {s : Statement} (hsql : '\n' ∉ s.sql.toList) :
    (Text.lines s.display = s.sql :: s.comments ↔ ∀ v ∈ s.params, '\n' ∉ v.display.toList) ∧
      ((Text.lines s.display).length = 1 + s.params.length ↔
        ∀ v ∈ s.params, '\n' ∉ v.display.toList) := by
  have hlength : (Text.lines s.display).length = 1 + s.params.length ↔
      ∀ v ∈ s.params, '\n' ∉ v.display.toList := by
    rw [← forall_comments_iff, ← Text.length_flatMap_lines, lines_display, List.flatMap_cons,
      Text.lines_eq_singleton hsql, List.length_append, length_comments, List.length_singleton]
    omega
  refine ⟨⟨?_, ?_⟩, hlength⟩
  · intro h
    apply hlength.mp
    rw [h, List.length_cons, length_comments, Nat.add_comm]
  · intro h
    rw [← forall_comments_iff] at h
    rw [lines_display, List.flatMap_cons, Text.lines_eq_singleton hsql, Text.flatMap_lines h]
    rfl

end Statement

theorem lineBreak_mem_literalPattern {word : List Char}
    (h : '\n' ∈ Condition.literalPattern word) : '\n' ∈ word := by
  obtain ⟨c, hc, hm⟩ := List.mem_flatMap.mp h
  split at hm
  · next hspecial =>
    obtain rfl : '\n' = c := by simpa using hm
    exact hc
  · obtain rfl : '\n' = c := by simpa using hm
    exact hc

theorem lineBreak_mem_globPattern {word : List Char}
    (h : '\n' ∈ Condition.globPattern word) : '\n' ∈ word := by
  obtain ⟨c, hc, hm⟩ := List.mem_map.mp h
  split at hm
  · cases hm
  · subst hm
    exact lineBreak_mem_literalPattern hc

theorem lineBreak_of_matching {field : FieldPath} {pattern : List Char} {v : Value}
    (hv : v ∈ (Condition.matching field pattern).values) (h : '\n' ∈ v.display.toList) :
    '\n' ∈ pattern := by
  obtain rfl : v = .string (String.ofList pattern) := List.mem_singleton.mp hv
  rw [← String.toList_ofList (l := pattern)]
  exact lineBreak_mem_apostrophed.mp h

/-- A search binds a pattern of its word, which has no line breaks of its own. -/
theorem lineBreak_of_searching {field : FieldPath} {mode : SearchMode} {word : String} {v : Value}
    (hv : v ∈ (Condition.searching field mode word).values) (h : '\n' ∈ v.display.toList) :
    '\n' ∈ word.toList := by
  cases mode with
  | equal =>
    obtain rfl : v = .string word := List.mem_singleton.mp hv
    exact lineBreak_mem_apostrophed.mp h
  | like =>
    apply lineBreak_mem_globPattern
    exact lineBreak_of_matching hv h
  | beginning | contains =>
    apply lineBreak_mem_literalPattern
    simpa using lineBreak_of_matching hv h

theorem mem_of_factory_compare {field : FieldPath} {op : Operator} {value v : Value}
    (hv : v ∈ (Condition.factory.compare field op value).values) : v = value := by
  have hequality (negated : Bool)
      (hv : v ∈ (Condition.equality field negated value).values) : v = value := by
    rw [Condition.equality] at hv
    split at hv
    · cases hv
    · exact List.mem_singleton.mp hv
  cases op with
  | equal => exact hequality false hv
  | notEqual => exact hequality true hv
  | _ => exact List.mem_singleton.mp hv

/-- Where the parameter of a tree's condition comes from. -/
inductive BoundBy (v : Value) : FilterTree → Prop where
  | compare (field : FieldPath) (op : Operator) : BoundBy v (.compare field op v)
  | search {field : FieldPath} {mode : SearchMode} {word : String}
      (h : v ∈ (Condition.searching field mode word).values) : BoundBy v (.search field mode word)

mutual

/-- Every parameter belongs to a leaf of the tree. -/
theorem boundBy_of_mem_values {v : Value} : ∀ t : FilterTree,
    v ∈ (t.fold Condition.factory).values → ∃ n ∈ t.postOrder, BoundBy v n
  | .all children, h => by
    obtain ⟨n, hn, hv⟩ := boundBy_of_mem_valuesList children h
    exact ⟨n, List.mem_append_left _ hn, hv⟩
  | .any children, h => by
    obtain ⟨n, hn, hv⟩ := boundBy_of_mem_valuesList children h
    exact ⟨n, List.mem_append_left _ hn, hv⟩
  | .negate child, h => by
    obtain ⟨n, hn, hv⟩ := boundBy_of_mem_values child h
    exact ⟨n, List.mem_append_left _ hn, hv⟩
  | .compare field op value, h => by
    obtain rfl := mem_of_factory_compare h
    exact ⟨_, .head [], .compare field op⟩
  | .search _ _ _, h => ⟨_, .head [], .search h⟩

theorem boundBy_of_mem_valuesList {v : Value} : ∀ ts : List FilterTree,
    v ∈ valuesList (FilterTree.foldList Condition.factory ts) →
      ∃ n ∈ FilterTree.postOrderList ts, BoundBy v n
  | t :: ts, h => by
    rcases List.mem_append.mp h with h | h
    · obtain ⟨n, hn, hv⟩ := boundBy_of_mem_values t h
      exact ⟨n, List.mem_append_left _ hn, hv⟩
    · obtain ⟨n, hn, hv⟩ := boundBy_of_mem_valuesList ts h
      exact ⟨n, List.mem_append_right _ hn, hv⟩

end

/-- A line break in a printed parameter is one of the query or of a constant of the schema. -/
theorem lineBreak_of_parameter {config : Config} {query : String} {t : FilterTree}
    (ht : Command.outcome config query = .ok (some t)) {v : Value}
    (hv : v ∈ (t.fold Condition.factory).values) (h : '\n' ∈ v.display.toList) :
    '\n' ∈ query.toList ∨
      ∃ name, v = .constant name ∧ config.schema.HasConstant name ∧ '\n' ∈ name.toList := by
  obtain ⟨n, hn, hbound⟩ := boundBy_of_mem_values t hv
  cases hbound with
  | compare field op =>
    have hdrawn := Command.drawnFrom_of_outcome ht hn
    obtain ⟨s, rfl | rfl, hs⟩ := Value.lineBreak_mem_display h
    · exact .inl (hdrawn hs)
    · exact .inr ⟨s, rfl, hdrawn, hs⟩
  | search hsearch =>
    exact .inl (Command.word_subset_of_outcome ht hn (lineBreak_of_searching hsearch h))

/-- A query that compiles is printed as its condition and a comment for each parameter. If the
condition has no line break, it stands on the first line. The comments have a line each just when
no parameter is printed with a line break, and as long as neither the query nor a constant of the
schema has one, that is so. -/
theorem printed_lines (config : Config) (query : String) {t : FilterTree}
    (ht : Command.outcome config query = .ok (some t)) (d : Dialect) :
    ∃ s, s = Statement.render d (t.fold Condition.factory) ∧
      (Command.compile config query .sql d false).output = .ok s.display ∧
      ('\n' ∉ s.sql.toList →
        Text.lines s.display = s.sql :: s.comments.flatMap Text.lines ∧
        (Text.lines s.display = s.sql :: s.comments ↔
          ∀ v ∈ s.params, '\n' ∉ v.display.toList) ∧
        ((Text.lines s.display).length = 1 + s.params.length ↔
          ∀ v ∈ s.params, '\n' ∉ v.display.toList) ∧
        (∀ v ∈ s.params, '\n' ∈ v.display.toList → '\n' ∈ query.toList ∨
          ∃ name, v = .constant name ∧ config.schema.HasConstant name ∧ '\n' ∈ name.toList) ∧
        ('\n' ∉ query.toList →
          (∀ name, config.schema.HasConstant name → '\n' ∉ name.toList) →
            Text.lines s.display = s.sql :: s.comments)) := by
  refine ⟨_, rfl, Command.compile_sql_output ht d false, ?_⟩
  intro hsql
  obtain ⟨hlayout, hlength⟩ := Statement.lines_display_iff hsql
  have hbreak : ∀ v ∈ (Statement.render d (t.fold Condition.factory)).params,
      '\n' ∈ v.display.toList → '\n' ∈ query.toList ∨
        ∃ name, v = .constant name ∧ config.schema.HasConstant name ∧ '\n' ∈ name.toList := by
    intro v hv
    rw [Statement.render, render_params] at hv
    exact lineBreak_of_parameter ht hv
  refine ⟨?_, hlayout, hlength, hbreak, ?_⟩
  · rw [Statement.lines_display, List.flatMap_cons, Text.lines_eq_singleton hsql]
    rfl
  · intro hquery hconstants
    rw [hlayout]
    intro v hv h
    obtain hm | ⟨name, -, hname, hm⟩ := hbreak v hv h
    · exact hquery hm
    · exact hconstants name hname hm

/-- A name with an apostrophe, or an age. -/
def sampleQuoted : FilterTree :=
  .any [.compare ⟨"name"⟩ .equal (.string "it's"), .compare ⟨"age"⟩ .greaterThan (.int 5)]

theorem printed_sampleQuoted :
    Command.outcome sampleConfig "name:it's or age>5" = .ok (some sampleQuoted) ∧
      ∃ s : Statement,
        (Command.compile sampleConfig "name:it's or age>5" .sql .mysql false).output =
          .ok s.display ∧
        '\n' ∉ s.sql.toList ∧
        Text.lines s.display = s.sql :: ["-- 1: 'it\\'s'", "-- 2: 5"] := by
  have ht : Command.outcome sampleConfig "name:it's or age>5" = .ok (some sampleQuoted) := by cbv
  have hsql : '\n' ∉ (Statement.render .mysql (sampleQuoted.fold Condition.factory)).sql.toList := by
    decide
  have hconstants : ∀ name, sampleConfig.schema.HasConstant name → '\n' ∉ name.toList := by
    rintro name ⟨e, he, p, hp, constants, htype, -⟩
    obtain rfl := List.mem_singleton.mp he
    rcases List.mem_cons.mp hp with rfl | hp
    · cases htype
    · obtain rfl := List.mem_singleton.mp hp
      cases htype
  obtain ⟨s, rfl, hs, hlines⟩ := printed_lines sampleConfig "name:it's or age>5" ht .mysql
  obtain ⟨-, -, -, -, hlayout⟩ := hlines hsql
  exact ⟨ht, _, hs, hsql, hlayout (by decide) hconstants⟩

/-- A quoted text may run over two lines, and its second line is printed on a line that is no
comment. -/
theorem not_printed_lines :
    Config.read sampleSource = .ok sampleConfig ∧
      Command.outcome sampleConfig "name:\"a\nb\"" =
        .ok (some (.compare ⟨"name"⟩ .equal (.string "a\nb"))) ∧
      (Command.compile sampleConfig "name:\"a\nb\"" .sql .postgres false).output =
        .ok "\"name\" = $1\n-- 1: 'a\nb'" ∧
      Text.lines "\"name\" = $1\n-- 1: 'a\nb'" = ["\"name\" = $1", "-- 1: 'a", "b'"] ∧
      ¬∀ source config query t d text, Config.read source = .ok config →
        Command.outcome config query = .ok (some t) →
        (Command.compile config query .sql d false).output = .ok text →
        '\n' ∉ (Statement.render d (t.fold Condition.factory)).sql.toList →
          (Text.lines text).length =
            1 + (Statement.render d (t.fold Condition.factory)).params.length := by
  have ht : Command.outcome sampleConfig "name:\"a\nb\"" =
      .ok (some (.compare ⟨"name"⟩ .equal (.string "a\nb"))) := by cbv
  have htext : (Command.compile sampleConfig "name:\"a\nb\"" .sql .postgres false).output =
      .ok "\"name\" = $1\n-- 1: 'a\nb'" := by cbv
  have hlines : Text.lines "\"name\" = $1\n-- 1: 'a\nb'" = ["\"name\" = $1", "-- 1: 'a", "b'"] := by
    decide
  refine ⟨read_sampleSource, ht, htext, hlines, ?_⟩
  intro h
  have hlength := h _ _ _ _ _ _ read_sampleSource ht htext (by decide)
  rw [hlines] at hlength
  exact absurd hlength (by decide)

end Sql

end FilterQuery
