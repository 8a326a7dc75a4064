import FilterQuery.Proofs.Mongo.Search
import FilterQuery.Proofs.Sql.Search

/-!
Searches of the two kinds of filters side by side. The pattern of a condition and the regular
expression of a document select the same texts, line breaks included, when a field has to start
with a word or to contain it. A glob becomes a point for each asterisk, and points take no line
break: there the two agree on texts without line breaks, and without an asterisk in the word on
those that end with none.
-/
namespace FilterQuery

namespace Mongo

section Matching

variable (fold : Char → Char) (breaks : Char → Bool)

/-- Where the end sign of a pattern holds: at the end of a text, and in front of a line break that
ends it. -/
def atFinish : List Char → Bool
  | [] => true
  | [c] => breaks c
  | _ => false

/-- Whether parts match from some place of a text on, as they do without options for lines. -/
def fitsFrom : List Part → Bool → List Char → Bool
  | [], _, _ => true
  | .start :: ps, atStart, t => atStart && fitsFrom ps atStart t
  | .finish :: ps, atStart, t => atFinish breaks t && fitsFrom ps atStart t
  | .run :: ps, atStart, t =>
    (List.range (t.length + 1)).any fun n =>
      (t.take n).all (! breaks ·) && fitsFrom ps (atStart && n == 0) (t.drop n)
  | .char c :: ps, _, t =>
    match t with
    | [] => false
    | d :: t => fold c == fold d && fitsFrom ps false t

/-- Whether a search for parts finds a place in a text. -/
def finds (ps : List Part) (t : List Char) : Bool :=
  (List.range (t.length + 1)).any fun n => fitsFrom fold breaks ps (n == 0) (t.drop n)

/-- The end sign holds at the very end of a text that does not end with a line break. -/
theorem atFinish_eq {t : List Char} (h : ∀ c ∈ t.getLast?, breaks c = false) :
    atFinish breaks t = t.isEmpty := by
  cases t with
  | nil => rfl
  | cons c t =>
    cases t with
    | nil => exact h c rfl
    | cons d t => rfl

/-- So there the two readings of the end sign do not differ, for every end of the text ends as the
text does. -/
theorem fitsFrom_eq {ps : List Part} {t : List Char} (atStart : Bool)
    (h : .finish ∉ ps ∨ ∀ c ∈ t.getLast?, breaks c = false) :
    fitsFrom fold breaks ps atStart t = matchesFrom fold breaks ps atStart t := by
  induction ps generalizing atStart t with
  | nil => rfl
  | cons p ps ih =>
    have hrest : ∀ u, u <:+ t → .finish ∉ ps ∨ ∀ c ∈ u.getLast?, breaks c = false := by
      intro u hu
      rcases h with h | h
      · exact .inl fun hm => h (List.mem_cons_of_mem p hm)
      · right
        intro c hc
        obtain ⟨front, rfl⟩ := hu
        exact h c (by rw [List.getLast?_append, Option.mem_def.mp hc]; rfl)
    cases p with
    | start => rw [fitsFrom, matchesFrom, ih _ (hrest t (List.suffix_refl t))]
    | finish =>
      have ht : ∀ c ∈ t.getLast?, breaks c = false := h.resolve_left (by simp)
      rw [fitsFrom, matchesFrom, atFinish_eq breaks ht, ih _ (hrest t (List.suffix_refl t))]
    | run =>
      rw [fitsFrom, matchesFrom]
      congr 1
      funext n
      rw [ih _ (hrest _ (List.drop_suffix n t))]
    | char c =>
      cases t with
      | nil => rfl
      | cons d t => rw [fitsFrom, matchesFrom, ih _ (hrest t (List.suffix_cons d t))]

theorem finds_eq {ps : List Part} {t : List Char}
    (h : .finish ∉ ps ∨ ∀ c ∈ t.getLast?, breaks c = false) :
    finds fold breaks ps t = occursIn fold breaks ps t := by
  rw [finds, occursIn]
  congr 1
  funext n
  apply fitsFrom_eq
  apply h.imp_right
  intro ht c hc
  rw [List.getLast?_drop] at hc
  split at hc
  · cases hc
  · exact ht c hc

theorem map_globPart {w : List Char} (h : '*' ∉ w) : w.map globPart = w.map .char := by
  apply List.map_congr_left
  intro c hc
  have hne : c ≠ '*' := fun he => h (he ▸ hc)
  exact if_neg hne

theorem matchesFrom_chars_finish (w : List Char) (atStart : Bool) (t : List Char) :
    matchesFrom fold breaks (w.map .char ++ [.finish]) atStart t = true ↔
      w.map fold = t.map fold := by
  induction w generalizing atStart t with
  | nil => cases t <;> simp [matchesFrom]
  | cons c w ih =>
    cases t with
    | nil => simp [matchesFrom]
    | cons d t =>
      rw [List.map_cons, List.cons_append, matchesFrom, Bool.and_eq_true, beq_iff_eq, ih,
        List.map_cons, List.map_cons, List.cons.injEq]

end Matching

end Mongo

theorem Text.glob_of_not_mem (fold : Char → Char) {w : List Char} (h : '*' ∉ w) (t : List Char) :
    Text.glob fold w t = true ↔ w.map fold = t.map fold := by
  induction w generalizing t with
  | nil => cases t <;> simp [Text.glob]
  | cons c w ih =>
    rw [List.mem_cons, not_or] at h
    cases t with
    | nil => simp [Text.glob_nil_of_ne fold (Ne.symm h.1)]
    | cons d t =>
      rw [Text.glob_cons_of_ne fold (Ne.symm h.1), Bool.and_eq_true, beq_iff_eq, ih h.2,
        List.map_cons, List.map_cons, List.cons.injEq]

/-- The condition matches the column of the field with a pattern and the document the field with
a regular expression, and of the texts of `P` both select the same. -/
def SelectAlike (field : FieldPath) (c : Sql.Condition) (document : Json)
    (P : (Char → Bool) → List Char → Prop) : Prop :=
  ∃ (pattern : String) (ps : List Mongo.Part),
    c = .like (.column (.ofField field)) (.value (.string pattern)) ∧
      Mongo.HasPattern field document ps ∧
      ∀ fold breaks text, P breaks text →
        (Sql.matchesLike fold pattern.toList text = true ↔
          Mongo.finds fold breaks ps text = true)

/-- Patterns and regular expressions can be read off what was built with them. -/
theorem selectAlike_matching (field : FieldPath) {pattern regex : List Char}
    {ps : List Mongo.Part} {P : (Char → Bool) → List Char → Prop}
    (hr : Mongo.parts? regex = some ps) :
    SelectAlike field (Sql.Condition.matching field pattern) (Mongo.matching field regex) P ↔
      ∀ fold breaks text, P breaks text →
        (Sql.matchesLike fold pattern text = true ↔ Mongo.finds fold breaks ps text = true) := by
  constructor
  · rintro ⟨pattern', ps', hc, ⟨regex', hd, hps⟩, h⟩
    obtain rfl : String.ofList pattern = pattern' := by
      simpa [Sql.Condition.matching, Sql.Condition.ofField] using hc
    obtain rfl : String.ofList regex = regex' := by simpa [Mongo.matching] using hd
    rw [String.toList_ofList, hr] at hps
    cases hps
    rwa [String.toList_ofList] at h
  · intro h
    refine ⟨String.ofList pattern, ps, rfl, Mongo.hasPattern_matching field hr, ?_⟩
    rwa [String.toList_ofList]

/-- Of the texts of `P` the searches of the two kinds of filters for a word select the same. -/
def SearchAlike (field : FieldPath) (mode : SearchMode) (word : String)
    (P : (Char → Bool) → List Char → Prop) : Prop :=
  SelectAlike field (Sql.Condition.factory.search field mode word)
    (Mongo.factory.search field mode word) P

/-- No asterisk of the word has to stand for a line break, and none ends the text. -/
def KeepsLines (word : List Char) (breaks : Char → Bool) (text : List Char) : Prop :=
  (∀ c ∈ text, breaks c = false) ∨ '*' ∉ word ∧ ∀ c ∈ text.getLast?, breaks c = false

theorem KeepsLines.getLast? {word : List Char} {breaks : Char → Bool} {text : List Char}
    (h : KeepsLines word breaks text) : ∀ c ∈ text.getLast?, breaks c = false := by
  intro c hc
  rcases h with h | ⟨-, h⟩
  · exact h c (List.mem_of_getLast? hc)
  · exact h c hc

theorem parts?_globRegex (word : List Char) :
    Mongo.parts? ('^' :: Mongo.globPattern word ++ ['$']) =
      some (.start :: word.map Mongo.globPart ++ [.finish]) := by
  rw [List.cons_append, Mongo.parts?, Mongo.parts?_globPattern]
  rfl

/-- Where no line break gets in the way, the parts of a glob match what the glob does. -/
theorem finds_glob (fold : Char → Char) {breaks : Char → Bool} {word text : List Char}
    (h : KeepsLines word breaks text) :
    Mongo.finds fold breaks (.start :: word.map Mongo.globPart ++ [.finish]) text = true ↔
      Text.glob fold word text = true := by
  rw [Mongo.finds_eq fold breaks (.inr h.getLast?), List.cons_append, Mongo.occursIn_start]
  rcases h with h | ⟨hw, -⟩
  · exact Mongo.matchesFrom_glob fold breaks word true h
  · rw [Mongo.map_globPart hw, Mongo.matchesFrom_chars_finish, Text.glob_of_not_mem fold hw]

/-- A search of a field for a word selects the same texts with either kind of filter, whatever
characters are folded together: all of them where the field starts with the word or contains it,
and those without a line break in the way where the word is a glob. -/
theorem search_alike (field : FieldPath) (word : String) :
    SearchAlike field .beginning word (fun _ _ => True) ∧
      SearchAlike field .contains word (fun _ _ => True) ∧
      SearchAlike field .like word (KeepsLines word.toList) := by
  have hparts : Mongo.parts? (Mongo.literalPattern word.toList) = some (word.toList.map .char) := by
    have h := Mongo.parts?_literalPattern word.toList []
    simpa [Mongo.parts?] using h
  refine ⟨?_, ?_, ?_⟩
  · have hstart : Mongo.parts? ('^' :: Mongo.literalPattern word.toList) =
        some (.start :: word.toList.map .char) := by
      rw [Mongo.parts?, hparts]
      rfl
    apply (selectAlike_matching field hstart).mpr
    intro fold breaks text _
    rw [Mongo.finds_eq fold breaks (.inl (by simp)), Mongo.occursIn_start,
      Mongo.matchesFrom_chars, Sql.Condition.matchesLike_literalPattern]
  · apply (selectAlike_matching field hparts).mpr
    intro fold breaks text _
    rw [Mongo.finds_eq fold breaks (.inl (by simp)), Mongo.occursIn_chars,
      Sql.Condition.matchesLike_percent_literalPattern]
  · apply (selectAlike_matching field (parts?_globRegex word.toList)).mpr
    intro fold breaks text ht
    rw [finds_glob fold ht, Sql.Condition.matchesLike_globPattern]

/-- An asterisk of a condition takes a line break that one of a document does not. -/
theorem not_search_alike : ¬SearchAlike ⟨"name"⟩ .like "a*" (fun _ _ => True) := by
  intro h
  have hall := (selectAlike_matching _ (parts?_globRegex "a*".toList)).mp h
  have hlike := (hall id (· == '\n') "a\nb".toList trivial).mp (by decide)
  have hnone : Mongo.finds id (· == '\n') [.start, .char 'a', .run, .finish] "a\nb".toList =
      false := by decide
  exact Bool.false_ne_true (hnone.symm.trans hlike)

theorem search_sampleAlike :
    KeepsLines "a*(".toList (· == '\n') "A\\x(".toList ∧
      Sql.matchesLike Char.toLower "a%(".toList "A\\x(".toList = true ∧
      Mongo.finds Char.toLower (· == '\n') [.start, .char 'a', .run, .char '(', .finish]
        "A\\x(".toList = true := by
  have hkeeps : KeepsLines "a*(".toList (· == '\n') "A\\x(".toList := .inl (by simp)
  have hlike : Sql.matchesLike Char.toLower "a%(".toList "A\\x(".toList = true := by decide
  obtain ⟨-, -, halike⟩ := search_alike ⟨"name"⟩ "a*("
  have hall := (selectAlike_matching _ (parts?_globRegex "a*(".toList)).mp halike
  exact ⟨hkeeps, hlike, (hall Char.toLower (· == '\n') _ hkeeps).mp hlike⟩

end FilterQuery
