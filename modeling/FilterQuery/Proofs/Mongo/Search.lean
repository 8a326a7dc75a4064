import FilterQuery.Mongo.Document
import FilterQuery.Proofs.Text.Glob

/-!
What the patterns of filter documents match. The pattern of a word can be taken apart into anchors,
runs and characters, and every character of the word is one of the characters, unless it is an
asterisk that stands for a run. So no sign of a word is ever active, and a search finds exactly
the texts that its mode asks for.
-/
namespace FilterQuery.Mongo

/-- A part of a regular expression. -/
inductive Part where
  /-- The start of the text. -/
  | start
  /-- The end of the text. -/
  | finish
  /-- Any run of characters without a line break. -/
  | run
  | char (c : Char)
  deriving DecidableEq

/-- The punctuation characters of ASCII. -/
def isPunctuation (c : Char) : Bool :=
  let n := c.toNat
  (0x21 ≤ n && n ≤ 0x2F) || (0x3A ≤ n && n ≤ 0x40) || (0x5B ≤ n && n ≤ 0x60) ||
    (0x7B ≤ n && n ≤ 0x7E)

/-- The characters that stand for themselves only behind a backslash. -/
def activeSigns : List Char :=
  ['\\', '^', '$', '.', '|', '?', '*', '+', '(', ')', '[', ']', '\x7b', '\x7d', '/']

/-- Takes a pattern apart. It must have no active signs but anchors and runs. -/
def parts? : List Char → Option (List Part)
  | [] => some []
  | '^' :: p => (parts? p).map (.start :: ·)
  | '$' :: p => (parts? p).map (.finish :: ·)
  | '.' :: '*' :: p => (parts? p).map (.run :: ·)
  | '\\' :: c :: p => if isPunctuation c then (parts? p).map (.char c :: ·) else none
  | c :: p => if c ∈ activeSigns then none else (parts? p).map (.char c :: ·)

section Matching

variable (fold : Char → Char) (breaks : Char → Bool)

/-- Whether parts match from some place of a text on. `atStart` tells whether that is its start,
and `breaks` which characters break lines. -/
def matchesFrom : List Part → Bool → List Char → Bool
  | [], _, _ => true
  | .start :: ps, atStart, t => atStart && matchesFrom ps atStart t
  | .finish :: ps, atStart, t => t.isEmpty && matchesFrom ps atStart t
  | .run :: ps, atStart, t =>
    (List.range (t.length + 1)).any fun n =>
      (t.take n).all (! breaks ·) && matchesFrom ps (atStart && n == 0) (t.drop n)
  | .char c :: ps, _, t =>
    match t with
    | [] => false
    | d :: t => fold c == fold d && matchesFrom ps false t

/-- Whether parts match somewhere in a text. -/
def occursIn (ps : List Part) (t : List Char) : Bool :=
  (List.range (t.length + 1)).any fun n => matchesFrom fold breaks ps (n == 0) (t.drop n)

end Matching

/-- A character with its backslash, if it needs one. -/
def escaped (c : Char) : List Char := if isPatternSign c then ['\\', c] else [c]

theorem literalPattern_cons (c : Char) (w : List Char) :
    literalPattern (c :: w) = escaped c ++ literalPattern w := rfl

theorem isPatternSign_iff {c : Char} : isPatternSign c = true ↔ c ∈ activeSigns := by
  simp [isPatternSign, activeSigns]

theorem isPunctuation_of_mem {c : Char} (h : c ∈ activeSigns) : isPunctuation c = true := by
  have hall : ∀ c ∈ activeSigns, isPunctuation c = true := by simp [activeSigns, isPunctuation]
  exact hall c h

theorem parts?_escaped (c : Char) (p : List Char) :
    parts? (escaped c ++ p) = (parts? p).map (.char c :: ·) := by
  rw [escaped]
  split
  · next h => rw [List.cons_append, List.singleton_append, parts?,
      if_pos (isPunctuation_of_mem (isPatternSign_iff.mp h))]
  · next h =>
    rw [isPatternSign_iff] at h
    rw [List.singleton_append, parts?, if_neg h]
    all_goals simp_all [activeSigns]

theorem parts?_literalPattern (w p : List Char) :
    parts? (literalPattern w ++ p) = (parts? p).map (w.map .char ++ ·) := by
  induction w with
  | nil => simp [literalPattern]
  | cons c w ih =>
    rw [literalPattern_cons, List.append_assoc, parts?_escaped, ih, Option.map_map]
    rfl

/-- No asterisk begins an escaped word, so no backslash that stands for itself meets one. -/
theorem head?_literalPattern (w : List Char) : (literalPattern w).head? ≠ some '*' := by
  cases w with
  | nil => simp [literalPattern]
  | cons c w =>
    rw [literalPattern_cons, escaped]
    split
    · simp
    · next h =>
      intro he
      rw [isPatternSign_iff] at h
      simp_all [activeSigns]

theorem openStars_cons {c : Char} {cs : List Char} (h : c = '\\' → cs.head? ≠ some '*') :
    openStars (c :: cs) = c :: openStars cs := by
  rw [openStars]
  rintro ds rfl rfl
  exact h rfl rfl

/-- The asterisks that are opened are those of the word. -/
theorem globPattern_cons (c : Char) (w : List Char) :
    globPattern (c :: w) = (if c = '*' then ['.', '*'] else escaped c) ++ globPattern w := by
  have hw := head?_literalPattern w
  rw [globPattern, globPattern, literalPattern_cons]
  split
  · next hc =>
    subst hc
    rfl
  · next hc =>
    rw [escaped]
    split
    · rw [List.cons_append, List.singleton_append, openStars_cons (by simpa using hc),
        openStars_cons fun _ => hw]
      rfl
    · rw [List.singleton_append, openStars_cons fun _ => hw]
      rfl

/-- What a character of a glob stands for. -/
def globPart (c : Char) : Part := if c = '*' then .run else .char c

theorem parts?_globPattern (w p : List Char) :
    parts? (globPattern w ++ p) = (parts? p).map (w.map globPart ++ ·) := by
  induction w with
  | nil => simp [globPattern, literalPattern, openStars]
  | cons c w ih =>
    rw [globPattern_cons, List.append_assoc, List.map_cons, globPart]
    split
    · rw [List.cons_append, List.singleton_append, parts?, ih, Option.map_map]
      rfl
    · rw [parts?_escaped, ih, Option.map_map]
      rfl

section Matching

variable (fold : Char → Char) (breaks : Char → Bool)

theorem any_range_iff {t : List Char} {f : Nat → Bool} {P : List Char → Prop}
    (h : ∀ n ≤ t.length, f n = true ↔ P (t.drop n)) :
    (List.range (t.length + 1)).any f = true ↔ ∃ s, s <:+ t ∧ P s := by
  rw [List.any_eq_true]
  constructor
  · rintro ⟨n, hn, hf⟩
    exact ⟨t.drop n, List.drop_suffix n t, (h n (by simpa [Nat.lt_succ_iff] using hn)).mp hf⟩
  · rintro ⟨s, hs, hp⟩
    rw [List.suffix_iff_eq_drop.mp hs] at hp
    exact ⟨t.length - s.length, by simp, (h _ (Nat.sub_le _ _)).mpr hp⟩

theorem matchesFrom_chars (w : List Char) (atStart : Bool) (t : List Char) :
    matchesFrom fold breaks (w.map .char) atStart t = true ↔ w.map fold <+: t.map fold := by
  induction w generalizing atStart t with
  | nil => simp [matchesFrom]
  | cons c w ih =>
    cases t with
    | nil => simp [matchesFrom]
    | cons d t =>
      rw [List.map_cons, matchesFrom, Bool.and_eq_true, beq_iff_eq, ih, List.map_cons,
        List.map_cons, List.cons_prefix_cons]

/-- In a text without line breaks the parts of a glob match what the glob does. -/
theorem matchesFrom_glob (w : List Char) (atStart : Bool) {t : List Char}
    (ht : ∀ c ∈ t, breaks c = false) :
    matchesFrom fold breaks (w.map globPart ++ [.finish]) atStart t = true ↔
      Text.glob fold w t = true := by
  induction w generalizing atStart t with
  | nil => simp [matchesFrom, Text.glob]
  | cons c w ih =>
    rw [List.map_cons, List.cons_append, globPart]
    split
    · next hc =>
      subst hc
      rw [matchesFrom, Text.glob_star_iff]
      refine any_range_iff fun n _ => ?_
      have hall : (t.take n).all (! breaks ·) = true := by
        simp only [List.all_eq_true, Bool.not_eq_true']
        exact fun c hc => ht c (List.mem_of_mem_take hc)
      rw [hall, Bool.true_and]
      exact ih _ fun c hc => ht c (List.mem_of_mem_drop hc)
    · next hc =>
      cases t with
      | nil => simp [matchesFrom, Text.glob_nil_of_ne fold hc]
      | cons d t =>
        rw [matchesFrom, Text.glob_cons_of_ne fold hc, Bool.and_eq_true, Bool.and_eq_true,
          ih false fun e he => ht e (List.mem_cons_of_mem d he)]

theorem occursIn_chars (w t : List Char) :
    occursIn fold breaks (w.map .char) t = true ↔ w.map fold <:+: t.map fold := by
  rw [Text.infix_map_iff_exists_suffix]
  exact any_range_iff fun n _ => matchesFrom_chars fold breaks w (n == 0) (t.drop n)

/-- Parts that begin with the start of the text match there or nowhere. -/
theorem occursIn_start (ps : List Part) (t : List Char) :
    occursIn fold breaks (.start :: ps) t = matchesFrom fold breaks ps true t := by
  rw [Bool.eq_iff_iff, occursIn, List.any_eq_true]
  constructor
  · rintro ⟨n, -, h⟩
    rw [matchesFrom, Bool.and_eq_true, beq_iff_eq] at h
    obtain ⟨rfl, h⟩ := h
    exact h
  · intro h
    exact ⟨0, by simp, h⟩

end Matching

/-- The document matches the field, without regard to letter case, with a pattern that has these
parts. -/
def HasPattern (field : FieldPath) (document : Json) (ps : List Part) : Prop :=
  ∃ pattern : String,
    document = .object [(field.text,
      .object [("$options", .string "i"), ("$regex", .string pattern)])] ∧
    parts? pattern.toList = some ps

theorem hasPattern_matching (field : FieldPath) {pattern : List Char} {ps : List Part}
    (h : parts? pattern = some ps) : HasPattern field (matching field pattern) ps :=
  ⟨String.ofList pattern, rfl, by rwa [String.toList_ofList]⟩

/-- The pattern of a search has the characters of the word for its parts, between anchors as the
mode asks for, and selects the texts that start with the word, those in which it occurs, or those
without line breaks that match it as a glob. -/
theorem search_hasPattern (field : FieldPath) (word : String) :
    HasPattern field (factory.search field .beginning word)
        (.start :: word.toList.map .char) ∧
      HasPattern field (factory.search field .contains word) (word.toList.map .char) ∧
      HasPattern field (factory.search field .like word)
        (.start :: word.toList.map globPart ++ [.finish]) ∧
      ∀ fold breaks text,
        (occursIn fold breaks (.start :: word.toList.map .char) text = true ↔
          word.toList.map fold <+: text.map fold) ∧
        (occursIn fold breaks (word.toList.map .char) text = true ↔
          word.toList.map fold <:+: text.map fold) ∧
        ((∀ c ∈ text, breaks c = false) →
          (occursIn fold breaks (.start :: word.toList.map globPart ++ [.finish]) text = true ↔
            Text.glob fold word.toList text = true)) := by
  have hchars : parts? (literalPattern word.toList) = some (word.toList.map .char) := by
    have h := parts?_literalPattern word.toList []
    simpa [parts?] using h
  refine ⟨?_, ?_, ?_, fun fold breaks text => ⟨?_, ?_, fun ht => ?_⟩⟩
  · exact hasPattern_matching field (by rw [parts?, hchars]; rfl)
  · exact hasPattern_matching field hchars
  · refine hasPattern_matching field ?_
    rw [List.cons_append, parts?, parts?_globPattern]
    rfl
  · rw [occursIn_start, matchesFrom_chars]
  · exact occursIn_chars fold breaks word.toList text
  · rw [List.cons_append, occursIn_start, matchesFrom_glob fold breaks word.toList true ht]

/-- A point, a backslash in front of an asterisk, and a bracket. -/
def sampleGlob : String := "a.\\*("

def sampleGlobParts : List Part :=
  [.start, .char 'a', .char '.', .char '\\', .run, .char '(', .finish]

theorem search_sampleGlob :
    HasPattern ⟨"name"⟩ (factory.search ⟨"name"⟩ .like sampleGlob) sampleGlobParts ∧
      (∀ c ∈ "A.\\xy(".toList, (c == '\n') = false) ∧
      occursIn Char.toLower (· == '\n') sampleGlobParts "A.\\xy(".toList = true := by
  obtain ⟨-, -, hpattern, hmatch⟩ := search_hasPattern ⟨"name"⟩ sampleGlob
  have hparts : .start :: sampleGlob.toList.map globPart ++ [.finish] = sampleGlobParts := by decide
  have hbreaks : ∀ c ∈ "A.\\xy(".toList, (c == '\n') = false := by simp
  have hglob : Text.glob Char.toLower sampleGlob.toList "A.\\xy(".toList = true := by decide
  have hlike := (hmatch Char.toLower (· == '\n') _).2.2 hbreaks
  rw [hparts] at hpattern hlike
  exact ⟨hpattern, hbreaks, hlike.mpr hglob⟩

end FilterQuery.Mongo
