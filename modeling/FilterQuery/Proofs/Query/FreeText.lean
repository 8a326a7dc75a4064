import FilterQuery.Proofs.Query.Reading

/-!
Free text. Words that start like no other item and name no field before an operator are searched
as they stand, each on its own, whatever operators, marks, quotes, bars and brackets they have
inside.
-/
namespace FilterQuery.Query

open Build

variable {C Handler : Type}

/-- A word that is read as text: it starts no other item, is no keyword and none with something
behind it that ends one, and in front of its first operator stands no field. -/
structure FreeWord (st : Setting Handler) (w : List Char) : Prop where
  ne_nil : w ≠ []
  char : ∀ c ∈ w, Text.isBlank c = false ∧ c ≠ ')' ∧ c ≠ '\\'
  head : ∀ c ∈ w.head?, startsOperator c = false ∧ c ≠ '(' ∧ c ≠ '"'
  bars : ¬"||".toList <+: w
  ampersands : ¬"&&".toList <+: w
  keyword : ∀ k ∈ ["or".toList, "and".toList], (w.take k.length).map Char.toLower = k →
    w.drop k.length ≠ [] ∧ ∀ c ∈ (w.drop k.length).head?, c ∉ ['(', '!', '"', '|']
  field : (∃ c ∈ w, startsOperator c = true) →
    st.schema.resolve? st.root ⟨String.ofList (w.takeWhile (! startsOperator ·))⟩ = none

/-- Words with a run of blanks between each two. -/
inductive Spaced : List String → List Char → Prop where
  | one (w : String) : Spaced [w] w.toList
  | more (w : String) {ws : List String} {b t : List Char} (hb : Gap b) (h : Spaced ws t) :
      Spaced (w :: ws) (w.toList ++ (b ++ t))

/-- The search for one word in every search field. -/
def wordSearch (F : Factory C) (st : Setting Handler) (w : String) : C :=
  F.all [F.any (st.searchFields.map fun f => F.search f.field f.mode w)]

theorem takeTerm_word {s rest : List Char} (hne : s ≠ []) (hq : s.head? ≠ some '"')
    (hs : ∀ c ∈ s, Text.isBlank c = false ∧ c ≠ ')' ∧ c ≠ '\\')
    (ho : ∀ c ∈ s, startsOperator c = false) (hr : EndsWord rest) :
    takeTerm (s ++ rest) = (⟨String.ofList s, false⟩, rest) := by
  have hword : ∀ c ∈ s, c ≠ '\\' ∧
      ∀ cs, (inWord (c :: cs) && (c :: cs).head? != some '!') = true := by
    intro c hc
    obtain ⟨hb, hp, he⟩ := hs c hc
    have hm : c ≠ '!' := by
      rintro rfl
      cases ho '!' hc
    exact ⟨he, fun cs => by simp [inWord_of_not_startsOperator (ho c hc) hb hp, hm]⟩
  have htake := takeEscapedWhile_all (p := fun cs => inWord cs && cs.head? != some '!') hword hr
  obtain ⟨c, s, rfl⟩ := List.exists_cons_of_ne_nil hne
  have hfirst := (hword c List.mem_cons_self).2 (s ++ rest)
  rw [takeTerm_bare (by simpa using hq), List.cons_append, takeWord_eq hfirst,
    ← List.cons_append, htake]

/-- A term is extended up to the next blank or closing bracket. -/
theorem extendTerm_append {s rest : List Char}
    (hs : ∀ c ∈ s, Text.isBlank c = false ∧ c ≠ ')' ∧ c ≠ '\\') (hr : AtEdge rest) (t : Term) :
    extendTerm t (s ++ rest) = (⟨t.text ++ String.ofList s, t.exact⟩, rest) := by
  have hstop : (atOperator rest || inWord rest) = false := by
    rw [hr.not_atOperator, hr.not_inWord, Bool.or_false]
  rw [extendTerm, takeEscapedWhile_all (fun c hc => ?_) (.inr hstop)]
  obtain ⟨hb, hp, he⟩ := hs c hc
  refine ⟨he, fun cs => ?_⟩
  cases ho : startsOperator c with
  | false => simp [inWord_of_not_startsOperator ho hb hp]
  | true =>
    by_cases hm : c = '!'
    · subst hm
      cases hop : atOperator ('!' :: cs) with
      | true => rfl
      | false => simp [inWord, hop, hb]
    · simp [atOperator_of_startsOperator ho hm]

/-- A text in front of an edge starts with `k` as soon as both together do. -/
theorem AtEdge.eq_append {w k rest tail : List Char} (hr : AtEdge rest)
    (hk : ∀ c ∈ k, Text.isBlank c = false ∧ c ≠ ')') (he : w ++ rest = k ++ tail) :
    ∃ v, w = k ++ v ∧ tail = v ++ rest := by
  rcases List.append_eq_append_iff.mp he with ⟨u, rfl, hu⟩ | ⟨v, rfl, ht⟩
  · cases u with
    | nil => exact ⟨[], by simp, by simpa using hu.symm⟩
    | cons c u =>
      obtain ⟨hb, hc⟩ := hk c (by simp)
      rcases hr.cases with rfl | ⟨d, ds, rfl, hd⟩
      · cases hu
      · obtain ⟨rfl, -⟩ := List.cons.inj hu
        simp [hb, hc] at hd
  · exact ⟨v, rfl, ht⟩

/-- What starts an operator is an operator, or else an exclamation mark. -/
theorem eq_mark_or_atOperator {c : Char} (hc : startsOperator c = true) (cs : List Char) :
    c = '!' ∨ atOperator (c :: cs) = true :=
  (em (c = '!')).imp_right fun h => atOperator_of_startsOperator hc h cs

theorem endsWord_of_startsOperator {c : Char} (hc : startsOperator c = true) (cs : List Char) :
    EndsWord (c :: cs) := by
  rcases eq_mark_or_atOperator hc cs with rfl | ho
  · exact .inr (by simp)
  · exact endsWord_operator (b := []) (by simp [Blanks]) ho

variable {st : Setting Handler} {w name tail rest : List Char}

theorem FreeWord.exists_cons (hw : FreeWord st w) : ∃ c v, w = c :: v ∧
    startsOperator c = false ∧ c ≠ '(' ∧ c ≠ '"' ∧ Text.isBlank c = false ∧ c ≠ ')' := by
  obtain ⟨c, v, rfl⟩ := List.exists_cons_of_ne_nil hw.ne_nil
  obtain ⟨ho, h₁, h₂⟩ := hw.head c rfl
  obtain ⟨hb, hc, -⟩ := hw.char c List.mem_cons_self
  exact ⟨c, v, rfl, ho, h₁, h₂, hb, hc⟩

/-- Behind a keyword at its start a free word goes on with a character that ends none. -/
theorem FreeWord.endsKeyword {k v : List Char} (hw : FreeWord st (k ++ v))
    (hk : k.map Char.toLower ∈ ["or".toList, "and".toList]) :
    endsKeyword (v ++ rest).head? = false := by
  have hv := hw.keyword _ hk
  rw [List.length_map, List.take_left, List.drop_left] at hv
  obtain ⟨hne, hv⟩ := hv rfl
  obtain ⟨c, v, rfl⟩ := List.exists_cons_of_ne_nil hne
  obtain ⟨hb, hc, -⟩ := hw.char c (by simp)
  have hn := hv c rfl
  simp only [List.mem_cons, List.not_mem_nil, or_false, not_or] at hn
  simp [Query.endsKeyword, hb, hc, hn]

theorem FreeWord.not_atOr (hw : FreeWord st w) (hr : AtEdge rest) : atOr (w ++ rest) = false := by
  rw [← Bool.not_eq_true, atOr_iff]
  rintro ⟨a, b, tail, he, ha, hb, ht⟩
  have hk : ∀ c ∈ [a, b], Text.isBlank c = false ∧ c ≠ ')' := by
    rcases ha with rfl | rfl <;> rcases hb with rfl | rfl <;> simp [Text.isBlank]
  obtain ⟨v, rfl, rfl⟩ := hr.eq_append (k := [a, b]) hk he
  have hl : [a, b].map Char.toLower ∈ ["or".toList, "and".toList] := by
    rcases ha with rfl | rfl <;> rcases hb with rfl | rfl <;> decide
  rw [hw.endsKeyword hl] at ht
  cases ht

theorem FreeWord.not_atAnd (hw : FreeWord st w) (hr : AtEdge rest) :
    atAnd (w ++ rest) = false := by
  rw [← Bool.not_eq_true, atAnd_iff]
  rintro ⟨a, b, c, tail, he, ha, hb, hc, ht⟩
  have hk : ∀ d ∈ [a, b, c], Text.isBlank d = false ∧ d ≠ ')' := by
    rcases ha with rfl | rfl <;> rcases hb with rfl | rfl <;> rcases hc with rfl | rfl <;>
      simp [Text.isBlank]
  obtain ⟨v, rfl, rfl⟩ := hr.eq_append (k := [a, b, c]) hk he
  have hl : [a, b, c].map Char.toLower ∈ ["or".toList, "and".toList] := by
    rcases ha with rfl | rfl <;> rcases hb with rfl | rfl <;> rcases hc with rfl | rfl <;> decide
  rw [hw.endsKeyword hl] at ht
  cases ht

theorem FreeWord.not_atAmpersands (hw : FreeWord st w) (hr : AtEdge rest) :
    atAmpersands (w ++ rest) = false := by
  rw [atAmpersands]
  intro tail he
  obtain ⟨v, hv, -⟩ := hr.eq_append (k := ['&', '&']) (by simp [Text.isBlank]) he
  exact hw.ampersands ⟨v, hv.symm⟩

theorem FreeWord.opens (hw : FreeWord st w) (hr : AtEdge rest) : Opens (w ++ rest) := by
  have hor := hw.not_atOr hr
  have hand : skipAnd (w ++ rest) = w ++ rest := by
    simp [skipAnd, hw.not_atAnd hr, hw.not_atAmpersands hr]
  obtain ⟨c, v, rfl, ho, -, -, hb, hc⟩ := hw.exists_cons
  exact ⟨Text.skipBlanks_cons hb _, by simp [atClose, hc], atOperator_of_not_startsOperator ho _,
    hor, hand⟩

theorem FreeWord.not_isMarked (hw : FreeWord st w) (hr : AtEdge rest) :
    isMarked (w ++ rest) = false := by
  rw [isMarked]
  · intro tail he
    obtain ⟨c, v, rfl, ho, -⟩ := hw.exists_cons
    obtain ⟨rfl, -⟩ := List.cons.inj he
    cases ho
  · intro tail he
    obtain ⟨c, v, rfl, -, hn, -⟩ := hw.exists_cons
    exact hn (List.cons.inj he).1
  · intro tail he
    obtain ⟨v, hv, -⟩ := hr.eq_append (k := ['|', '|']) (by simp [Text.isBlank]) he
    exact hw.bars ⟨v, hv.symm⟩

theorem FreeWord.inWord (hw : FreeWord st w) : inWord (w ++ rest) = true := by
  obtain ⟨c, v, rfl, ho, -, -, hb, hc⟩ := hw.exists_cons
  exact inWord_of_not_startsOperator ho hb hc _

/-- A text of non-blank characters is a single word. -/
theorem words_of_not_isBlank (hne : w ≠ []) (hw : ∀ c ∈ w, Text.isBlank c = false) :
    Text.words w = [w] := by
  rw [Text.words, List.splitOnP_eq_singleton hw]
  simp [hne]

/-- A free word is a name, and from its first operator on a text behind a name of no field. -/
theorem FreeWord.exists_name (hw : FreeWord st w) : ∃ name tail, w = name ++ tail ∧ name ≠ [] ∧
    (∀ c ∈ name, startsOperator c = false) ∧ (∀ c ∈ tail.head?, startsOperator c = true) ∧
    (tail ≠ [] → st.schema.resolve? st.root ⟨String.ofList name⟩ = none) := by
  have hcut := List.takeWhile_append_dropWhile (p := (! startsOperator ·)) (l := w)
  have htail := List.head?_dropWhile_not (! startsOperator ·) w
  refine ⟨w.takeWhile (! startsOperator ·), w.dropWhile (! startsOperator ·), hcut.symm, ?_,
    ?_, ?_, ?_⟩
  · obtain ⟨c, v, rfl, ho, -⟩ := hw.exists_cons
    simp [ho]
  · intro c hc
    simpa using List.mem_takeWhile_imp hc
  · intro c hc
    rw [hc] at htail
    simpa using htail
  · intro hne
    obtain ⟨c, tail, ht⟩ := List.exists_cons_of_ne_nil hne
    rw [ht] at hcut htail
    refine hw.field ⟨c, ?_, by simpa using htail⟩
    rw [← hcut]
    simp

theorem FreeWord.takeTerm_name (hw : FreeWord st (name ++ tail)) (hne : name ≠ [])
    (hname : ∀ c ∈ name, startsOperator c = false) (hr : EndsWord rest) :
    takeTerm (name ++ rest) = (⟨String.ofList name, false⟩, rest) := by
  refine takeTerm_word hne ?_ (fun c hc => hw.char c (List.mem_append_left tail hc)) hname hr
  intro h
  exact (hw.head '"' (by simp [h])).2.2 rfl

variable (F : Factory C)

theorem FreeWord.compileTerm_operator {c : Char} (hw : FreeWord st (name ++ c :: tail))
    (hne : name ≠ []) (hname : ∀ c ∈ name, startsOperator c = false)
    (hc : startsOperator c = true) (rest : List Char) :
    compileTerm F st (name ++ (c :: tail ++ rest)) =
      compileOperation F st ⟨String.ofList name, false⟩ false (c :: tail ++ rest) := by
  have hterm := hw.takeTerm_name hne hname (endsWord_of_startsOperator hc (tail ++ rest))
  have hin : Query.inWord (name ++ (c :: tail ++ rest)) = true := by
    rw [← List.append_assoc]
    exact hw.inWord
  have hskip : Text.skipBlanks (c :: tail ++ rest) = c :: tail ++ rest :=
    Text.skipBlanks_cons (hw.char c (by simp)).1 _
  rw [compileTerm_operation F st hin hterm, ← List.cons_append, hskip,
    decide_eq_false (Nat.lt_irrefl _)]
  rw [← List.cons_append, hskip]
  rcases eq_mark_or_atOperator hc (tail ++ rest) with rfl | ho
  · exact .inr ⟨rfl, rfl, rfl⟩
  · exact .inl ho

theorem FreeWord.termBlock (hw : FreeWord st w) (hf : st.searchFields ≠ []) :
    termBlock F st ⟨String.ofList w, false⟩ = some (wordSearch F st (String.ofList w)) := by
  have hwords := words_of_not_isBlank hw.ne_nil fun c hc => (hw.char c hc).1
  simp [Query.termBlock, wordsBlock, wordSearch, wordGroup, hf, hwords]

/-- What stands behind a name of no field is searched together with it. -/
theorem FreeWord.compileOperation_returns (hw : FreeWord st (name ++ tail))
    (hn : st.schema.resolve? st.root ⟨String.ofList name⟩ = none) (hr : AtEdge rest) :
    (compileOperation F st ⟨String.ofList name, false⟩ false (tail ++ rest)).Returns
      (Query.termBlock F st ⟨String.ofList (name ++ tail), false⟩, rest) := by
  have hy := compileOperation_yields st (admitsOwn_true F) ⟨String.ofList name, false⟩ false
    (tail ++ rest) hn
  rw [looseTerm, if_neg (by simp),
    extendTerm_append (fun c hc => hw.char c (List.mem_append_right name hc)) hr] at hy
  rwa [String.ofList_append]

variable [TagHandler Handler C]

/-- A free word is read whole and searched. -/
theorem reads_freeWord (hf : st.searchFields ≠ []) (hw : FreeWord st w) {cs : List Char}
    (hr : Follows rest) (hs : Text.skipBlanks cs = w ++ rest) :
    Reads (some (wordSearch F st (String.ofList w))) rest (compileUnit F st cs) := by
  have hm := hw.not_isMarked hr.edge
  rw [← hw.termBlock F hf]
  obtain ⟨name, tail, rfl, hne, hname, htail, hn⟩ := hw.exists_name
  cases tail with
  | nil =>
    have hterm := hw.takeTerm_name hne hname hr.edge.endsWord
    have hin : Query.inWord (name ++ [] ++ rest) = true := hw.inWord
    rw [List.append_nil] at hs hm hin ⊢
    exact reads_search F st hm hin hs hterm hr
  | cons c tail =>
    have hy := hw.compileOperation_returns F (hn (by simp)) hr.edge
    rw [← hw.compileTerm_operator F hne hname (htail c rfl)] at hy
    rw [compileUnit_of_not_isMarked F st (hs ▸ hm), hs, List.append_assoc]
    exact ⟨rest, hy, rfl⟩

theorem Spaced.opens {ws : List String} {t : List Char} (h : Spaced ws t)
    (hw : ∀ w ∈ ws, FreeWord st w.toList) : Opens t := by
  cases h with
  | one w =>
    have ho := (hw w List.mem_cons_self).opens follows_nil.edge
    rwa [List.append_nil] at ho
  | more w hb h =>
    obtain ⟨c, b, rfl⟩ := List.exists_cons_of_ne_nil hb.1
    exact (hw w List.mem_cons_self).opens (.inr (by simp [inValue, hb.2 c List.mem_cons_self]))

theorem allParts_spaced (hf : st.searchFields ≠ []) {ws : List String} {t : List Char}
    (h : Spaced ws t) (hw : ∀ w ∈ ws, FreeWord st w.toList) {cs : List Char}
    (hs : Text.skipBlanks cs = t) :
    (allParts F st cs).Returns (ws.map (wordSearch F st), []) := by
  have hcl : ¬atClose cs = true := not_atClose_of_opens (hs ▸ h.opens hw)
  induction h generalizing cs with
  | one w =>
    rw [← List.append_nil w.toList] at hs
    have hread := reads_freeWord F hf (hw w List.mem_cons_self) follows_nil hs
    rw [String.ofList_toList] at hread
    exact allParts_last F st hcl hread (.inr rfl)
  | @more w ws b t hb h ih =>
    have hws : ∀ v ∈ ws, FreeWord st v.toList := fun v hv => hw v (List.mem_cons_of_mem w hv)
    have ho := h.opens hws
    obtain ⟨hfollows, hor, b', hb', hand⟩ := (Joint.blanks hb).reads ho
    have hread := reads_freeWord F hf (hw w List.mem_cons_self) hfollows hs
    have hnext : Text.skipBlanks (b' ++ t) = t := by rw [Text.skipBlanks_append hb', ho.blank]
    rw [String.ofList_toList] at hread
    refine allParts_cons F st hcl hread hor ?_
    rw [hand]
    exact ih hws hnext (not_atClose_of_opens (hnext.symm ▸ ho))

/-- A text of free words is searched word by word. No word is cut, joined with its neighbour or
read as anything else. -/
theorem compile_freeText (hf : st.searchFields ≠ []) {ws : List String} {text : String}
    (h : Spaced ws text.toList) (hw : ∀ w ∈ ws, FreeWord st w.toList) :
    (compile F st text).result = .ok (joined F.all (ws.map (wordSearch F st))) := by
  have ho := h.opens hw
  have hcl : ¬atClose text.toList = true := not_atClose_of_opens (ho.blank.symm ▸ ho)
  have hany := anyParts_last F st hcl (allParts_spaced F hf h hw ho.blank) rfl
  have hr := (returns_combine hany F.any).result
  rw [joined_toList] at hr
  rw [compile, compileAny, hr]

/-- An address, marks and operators, a tag that stands inside a word, and a bracket behind letters
that only begin like a keyword. -/
def sampleFree : List String := ["foo:http://x", "a!b<c", "x||Y:1||", "Ore!=(s"]

theorem compile_sampleFree :
    Spaced sampleFree "foo:http://x  a!b<c\tx||Y:1|| Ore!=(s".toList ∧
      (∀ w ∈ sampleFree, FreeWord sampleSetting w.toList) ∧
      (compile FilterTree.factory sampleSetting "foo:http://x  a!b<c\tx||Y:1|| Ore!=(s").result =
        .ok (some (.all (sampleFree.map fun w => .all [.any [.search ⟨"name"⟩ .like w]]))) := by
  have hgap : Gap [' '] ∧ Gap [' ', ' '] ∧ Gap ['\t'] := by simp [Gap, Blanks, Text.isBlank]
  have hs : Spaced sampleFree "foo:http://x  a!b<c\tx||Y:1|| Ore!=(s".toList :=
    .more "foo:http://x" hgap.2.1 (.more "a!b<c" hgap.2.2 (.more "x||Y:1||" hgap.1
      (.one "Ore!=(s")))
  have hw : ∀ w ∈ sampleFree, FreeWord sampleSetting w.toList := by
    intro w hw
    simp only [sampleFree, List.mem_cons, List.not_mem_nil, or_false] at hw
    rcases hw with rfl | rfl | rfl | rfl <;>
      exact ⟨by decide, by simp [Text.isBlank], by simp [startsOperator], by decide, by decide,
        by simp, fun _ => by cbv⟩
  exact ⟨hs, hw, compile_freeText FilterTree.factory (by decide) hs hw⟩

end FilterQuery.Query
