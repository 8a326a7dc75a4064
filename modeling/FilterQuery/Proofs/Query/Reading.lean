import FilterQuery.Filter.Tree
import FilterQuery.Proofs.Query.Boundary
import FilterQuery.Proofs.Query.TagText

/-!
The compiler reads the grammar. Of every text that spells a query, whatever blanks, letter
cases and escapes it is spelled with, the compiler returns the constraint that the query
stands for.
-/
namespace FilterQuery.Query

open Build

theorem takePayload_append {p : List Char} (h : '|' ∉ p) (rest : List Char) :
    takePayload (p ++ '|' :: '|' :: rest) = (p, rest) := by
  induction p with
  | nil => rfl
  | cons c p ih =>
    have hc : c ≠ '|' := fun he => h (he ▸ List.mem_cons_self)
    rw [List.cons_append, takePayload, ih fun hp => h (List.mem_cons_of_mem c hp)]
    intro cs he _
    exact hc he

theorem TagPart.part? {s : String} (h : TagPart s) :
    Tag.part? s.toList = some (Text.trim s) := by
  obtain ⟨c, hc, hb⟩ := h.2
  rw [Tag.part?, if_neg (Text.trimChars_ne_nil hc hb)]
  rfl

theorem TagPart.read {type value : String} (ht : TagPart type) (hc : ':' ∉ type.toList)
    (hv : TagPart value) :
    Tag.read (String.ofList (type.toList ++ ':' :: value.toList)) =
      ⟨some (Text.trim type), some (Text.trim value)⟩ := by
  have hp : '|' ∉ type.toList ++ ':' :: value.toList := by simp [ht.1, hv.1]
  have hbars : ¬Tag.bars <:+: type.toList ++ ':' :: value.toList :=
    fun h => hp (h.subset List.mem_cons_self)
  rw [Tag.read_of_not_infix hbars, Tag.ofPayload_append hc, ht.part?, hv.part?]

section Runs

variable {C Handler : Type} (F : Factory C) (st : Setting Handler)

/-- `a` comes back, and up to blanks the text is read to where `rest` begins. -/
def Reads {α : Type} (a : α) (rest : List Char) (x : Build C (α × List Char)) : Prop :=
  ∃ r, x.Returns (a, r) ∧ Text.skipBlanks r = Text.skipBlanks rest

theorem atClose_of_inWord {cs : List Char} (h : inWord cs = true) : atClose cs = false := by
  cases cs with
  | nil => cases h
  | cons c cs =>
    simp only [inWord, Bool.and_eq_true, bne_iff_ne] at h
    simpa [atClose] using h.1.1.1

theorem skipStray_of_inWord {cs : List Char} (h : inWord cs = true) : skipStray cs = cs := by
  cases cs with
  | nil => rfl
  | cons c cs => rw [skipStray, h, Bool.or_true, if_pos rfl]

theorem skipStray_of_isLeading {c : Char} (h : isLeading c = true) (cs : List Char) :
    skipStray (c :: cs) = c :: cs :=
  skipStray_of_inWord (inWord_of_isLeading h cs)

theorem compileTerm_operation {cs after : List Char} {t : Term} (hw : inWord cs = true)
    (ht : takeTerm cs = (t, after))
    (ho : atOperator (Text.skipBlanks after) = true ∨
      (Text.skipBlanks after = after ∧ t.exact = false ∧ after.head? = some '!')) :
    compileTerm F st cs = compileOperation F st t
      (decide ((Text.skipBlanks after).length < after.length)) (Text.skipBlanks after) := by
  rw [compileTerm, skipStray_of_inWord hw, ht]
  rcases ho with ho | ⟨hb, hx, hm⟩
  · simp [atClose_of_inWord hw, ho]
  · simp [atClose_of_inWord hw, hb, hx, hm]

theorem compileTerm_search {cs after : List Char} {t : Term} (hw : inWord cs = true)
    (ht : takeTerm cs = (t, after)) (hf : Follows after) :
    compileTerm F st cs = (do
      let c ← searchTerm F st t
      pure (c, Text.skipBlanks after)) := by
  rw [compileTerm, skipStray_of_inWord hw, ht]
  rcases hf.edge.head?_skipBlanks with hb | hb <;> simp [atClose_of_inWord hw, hf.operator, hb]

/-- Whether a text starts with a negation, a group or a tag. -/
def isMarked : List Char → Bool
  | '!' :: _ => true
  | '(' :: _ => true
  | '|' :: '|' :: _ => true
  | _ => false

theorem isMarked_of_isLeading {c : Char} (h : isLeading c = true) (cs : List Char) :
    isMarked (c :: cs) = false := by
  rw [isMarked]
  all_goals
    intro ds he
    cases he
    exact absurd h (by decide)

variable [TagHandler Handler C]

theorem compileUnit_of_not_isMarked {cs : List Char} (h : isMarked (Text.skipBlanks cs) = false) :
    compileUnit F st cs = compileTerm F st (Text.skipBlanks cs) := by
  apply compileUnit_term
  all_goals
    intro rest he
    rw [he] at h
    cases h

theorem compileUnit_of_isLeading {c : Char} {cs ds : List Char} (hc : isLeading c = true)
    (hs : Text.skipBlanks cs = c :: ds) : compileUnit F st cs = compileTerm F st (c :: ds) := by
  rw [compileUnit_of_not_isMarked, hs]
  rw [hs, isMarked_of_isLeading hc]

/-- A search term is read and searched. -/
theorem reads_search {cs ds rest : List Char} {t : Term} (hm : isMarked ds = false)
    (hw : inWord ds = true) (hs : Text.skipBlanks cs = ds) (ht : takeTerm ds = (t, rest))
    (hf : Follows rest) : Reads (termBlock F st t) rest (compileUnit F st cs) := by
  rw [compileUnit_of_not_isMarked F st (hs ▸ hm), hs, compileTerm_search F st hw ht hf]
  refine ⟨Text.skipBlanks rest, ?_, ?_⟩
  · exact (searchTerm_yields st (admitsOwn_true F) t).bind (yields_pure _)
  · exact List.dropWhile_idempotent _ _

theorem reads_comparison {field : String} {op : Operator} {operand : Operand} {r : Resolved}
    {t b b' t' cs rest : List Char} {o : String}
    (hr : st.schema.resolve? st.root ⟨field⟩ = some r) (hf : FieldSpelling field t)
    (hb : Blanks b) (ho : o ∈ operatorTexts op) (hb' : Blanks b')
    (hv : OperandSpelling operand t') (hrest : AtEdge rest)
    (hs : Text.skipBlanks cs = t ++ (b ++ (o.toList ++ (b' ++ (t' ++ rest))))) :
    Reads (some (F.compare ⟨field⟩ op (operand.value r))) rest (compileUnit F st cs) := by
  obtain ⟨h₁, h₂⟩ := head?_operand hb' hv rest
  have hat := at?_operatorText ho h₁ h₂
  have hop : atOperator (o.toList ++ (b' ++ (t' ++ rest))) = true := by simp [atOperator, hat]
  obtain ⟨exact, ht⟩ := hf.takeTerm (endsWord_operator hb hop)
  obtain ⟨c, t₀, rfl, hc⟩ := hf.exists_cons
  rw [List.cons_append] at hs ht
  have hsk : Text.skipBlanks (b ++ (o.toList ++ (b' ++ (t' ++ rest)))) =
      o.toList ++ (b' ++ (t' ++ rest)) := by
    rw [Text.skipBlanks_append hb, skipBlanks_operator ho]
  obtain ⟨term, htv, hval⟩ := hv.takeValue hrest
  rw [compileUnit_of_isLeading F st hc hs,
    compileTerm_operation F st (inWord_of_isLeading hc _) ht (.inl (by rw [hsk, hop])), hsk,
    compileOperation, hr]
  have hy := compileComparison_yields (admitsOwn_true F) field r hat
  rw [List.drop_left, takeValue_blanks hb', htv, hval] at hy
  exact ⟨rest, hy, rfl⟩

theorem reads_tag {type value : String} (ht : TagPart type) (hc : ':' ∉ type.toList)
    (hv : TagPart value) {cs rest : List Char}
    (hs : Text.skipBlanks cs =
      '|' :: '|' :: (type.toList ++ ':' :: (value.toList ++ '|' :: '|' :: rest))) :
    Reads (tagged F st ⟨some (Text.trim type), some (Text.trim value)⟩) rest
      (compileUnit F st cs) := by
  have hp : takePayload (type.toList ++ ':' :: (value.toList ++ '|' :: '|' :: rest)) =
      (type.toList ++ ':' :: value.toList, rest) := by
    have h := takePayload_append (p := type.toList ++ ':' :: value.toList)
      (by simp [ht.1, hv.1]) rest
    rwa [List.append_assoc, List.cons_append] at h
  have hy := compileUnit_tag_yields (admits_true F st) hs
  rw [hp, ht.read hc hv] at hy
  exact ⟨rest, hy, rfl⟩

theorem reads_negation {m : Option C} {cs ds rest : List Char}
    (h : Reads m rest (compileUnit F st ds)) (hs : Text.skipBlanks cs = '!' :: ds) :
    Reads (m.map F.negate) rest (compileUnit F st cs) := by
  obtain ⟨r, hr, hb⟩ := h
  rw [compileUnit_not hs]
  refine ⟨r, hr.bind ?_, hb⟩
  cases m with
  | none => exact yields_pure _
  | some c => exact (yields_make trivial).bind (yields_pure _)

theorem returns_combine {x : Build C (List C × List Char)} {parts : List C} {rest : List Char}
    (hx : x.Returns (parts, rest)) (join : List C → C) :
    (do let (parts, rest) ← x; let c ← combine join parts; pure (c, rest)).Returns
      (joined join parts, rest) :=
  hx.bind ((combine_yields join parts fun _ => trivial).bind (yields_pure _))

theorem reads_group {parts : List C} {cs ds rest : List Char}
    (h : (anyParts F st ds).Returns (parts, ')' :: rest)) (hs : Text.skipBlanks cs = '(' :: ds) :
    Reads (joined F.any parts) rest (compileUnit F st cs) := by
  rw [compileUnit_group hs, compileAny]
  exact ⟨rest, (returns_combine h F.any).bind (yields_pure _), rfl⟩

theorem allParts_cons {m : Option C} {parts : List C} {cs rest after : List Char}
    (hc : ¬atClose cs = true) (h : Reads m rest (compileUnit F st cs))
    (ho : atOr (Text.skipBlanks rest) = false)
    (hn : (allParts F st (skipAnd (Text.skipBlanks rest))).Returns (parts, after)) :
    (allParts F st cs).Returns (m.toList ++ parts, after) := by
  obtain ⟨r, hr, hb⟩ := h
  rw [allParts_eq hc]
  refine hr.bind ?_
  simp only [hb, ho, Bool.false_eq_true, ↓reduceIte]
  exact hn.bind (yields_pure _)

theorem allParts_last {m : Option C} {cs rest : List Char} (hc : ¬atClose cs = true)
    (h : Reads m rest (compileUnit F st cs))
    (he : atOr (Text.skipBlanks rest) = true ∨ atClose (Text.skipBlanks rest) = true) :
    (allParts F st cs).Returns (m.toList, Text.skipBlanks rest) := by
  by_cases ho : atOr (Text.skipBlanks rest) = true
  · obtain ⟨r, hr, hb⟩ := h
    rw [allParts_eq hc]
    refine hr.bind ?_
    simp only [hb, ho, ↓reduceIte]
    exact yields_pure _
  · have hcl := he.resolve_left ho
    have hn : allParts F st (skipAnd (Text.skipBlanks rest)) =
        pure ([], Text.skipBlanks rest) := by
      rw [skipAnd_of_atClose hcl, allParts, if_pos hcl]
    have h := allParts_cons F st hc h (Bool.eq_false_iff.mpr ho) (hn ▸ yields_pure _)
    rwa [List.append_nil] at h

theorem anyParts_last {parts : List C} {cs rest : List Char} (hc : ¬atClose cs = true)
    (h : (allParts F st cs).Returns (parts, rest)) (ho : atOr rest = false) :
    (anyParts F st cs).Returns ((joined F.all parts).toList, rest) := by
  rw [anyParts_eq hc, compileAll]
  refine (returns_combine h F.all).bind ?_
  simp only [ho, Bool.false_eq_true, ↓reduceIte]
  exact yields_pure _

theorem anyParts_cons {parts parts' : List C} {cs rest after : List Char}
    (hc : ¬atClose cs = true) (h : (allParts F st cs).Returns (parts, rest))
    (ho : atOr rest = true) (hn : (anyParts F st (rest.drop 2)).Returns (parts', after)) :
    (anyParts F st cs).Returns ((joined F.all parts).toList ++ parts', after) := by
  rw [anyParts_eq hc, compileAll]
  refine (returns_combine h F.all).bind ?_
  simp only [ho, ↓reduceIte]
  exact hn.bind (yields_pure _)

theorem joined_toList (join : List C → C) (m : Option C) : joined join m.toList = m := by
  cases m <;> rfl

/-- A text with a single item compiles to the constraint of the item. -/
theorem compileAny_item {m : Option C} {cs rest : List Char} (hc : ¬atClose cs = true)
    (h : Reads m rest (compileUnit F st cs)) (he : atClose (Text.skipBlanks rest) = true) :
    (compileAny F st cs).Returns (m, Text.skipBlanks rest) := by
  have hall := allParts_last F st hc h (.inr he)
  have hany := returns_combine (anyParts_last F st hc hall (atOr_of_atClose he)) F.any
  rw [joined_toList, joined_toList] at hany
  rwa [compileAny]

variable {F st} in
/-- The result of a query whose text is given. -/
theorem compile_ofList {cs rest : List Char} {c : Option C}
    (h : (compileAny F st cs).result = .ok (c, rest)) :
    (compile F st (String.ofList cs)).result = .ok c := by
  rw [compile, String.toList_ofList, h]

/-- A field and a value between quotes, with a colon between them. -/
def quotedComparison (field value : String) : List Char :=
  quotedText field ++ ':' :: quotedText value

/-- Quotes take a field and a value as they are, whatever characters they have. -/
theorem compile_quotedComparison {field : String} {r : Resolved}
    (hr : st.schema.resolve? st.root ⟨field⟩ = some r) (value : String) :
    (compile F st (String.ofList (quotedComparison field value))).result =
      .ok (some (F.eq ⟨field⟩ (converted r value))) := by
  have hs : Text.skipBlanks (quotedComparison field value) =
      quotedText field ++ ([] ++ (":".toList ++ ([] ++ (quotedText value ++ [])))) := by
    rw [List.append_nil]
    exact Text.skipBlanks_cons rfl _
  have hreads := reads_comparison F st hr .quoted (by simp [Blanks])
    (show ":" ∈ operatorTexts .equal by simp [operatorTexts]) (by simp [Blanks])
    (.quoted value) follows_nil.edge hs
  have hitem := compileAny_item F st (by simp [quotedComparison, quotedText, atClose]) hreads rfl
  exact compile_ofList hitem.result

end Runs

section Queries

variable {C : Type} (F : Factory C) (st : Setting)

mutual

theorem reads_item {u : Item} {t cs rest : List Char} (h : SpellsItem u t) (hu : u.Resolves st)
    (hf : Follows rest) (hs : Text.skipBlanks cs = t ++ rest) :
    Reads (u.meaning F st) rest (compileUnit F st cs) := by
  cases h with
  | negation h =>
    have ho := h.opens hf.edge.notBare
    exact reads_negation F st (reads_item h hu hf ho.blank) hs
  | @group q t h =>
    rw [List.cons_append, List.append_assoc] at hs
    have hcl := skipBlanks_close rest
    have ho := h.opens (follows_close rest).edge.notBare
    have hr := reads_alternatives h hu (follows_close rest) (by rw [hcl]; rfl) ho.blank
    rw [hcl] at hr
    exact reads_group F st hr hs
  | tag ht hc hv =>
    rw [Item.meaning, ← tagged_eq_tagEquality]
    exact reads_tag F st ht hc hv (by simpa using hs)
  | @comparison field op operand _ _ _ _ _ hf' hb ho hb' hv =>
    obtain ⟨r, hr⟩ := Option.isSome_iff_exists.mp hu
    have hc := reads_comparison F st hr hf' hb ho hb' hv hf.edge (by simpa using hs)
    simpa [Item.meaning, hr] using hc
  | phrase s =>
    exact reads_search F st rfl (inWord_of_isLeading (c := '"') rfl _) hs
      (takeTerm_quotedText s rest) hf
  | @word s t h =>
    have ht := takeTerm_plain h hf.edge.endsWord
    obtain ⟨c, t', rfl, hc⟩ := h.escaped.exists_cons h.ne_nil
    have hl := isLeading_of_isBare_or hc
    exact reads_search F st (isMarked_of_isLeading hl _) (inWord_of_isLeading hl _) hs ht hf

theorem reads_conjuncts {c : Conjuncts} {t cs rest : List Char} (h : SpellsConjuncts c t)
    (hc : c.Resolves st) (hf : Follows rest)
    (he : atOr (Text.skipBlanks rest) = true ∨ atClose (Text.skipBlanks rest) = true)
    (hs : Text.skipBlanks cs = t ++ rest) :
    (allParts F st cs).Returns (c.parts F st, Text.skipBlanks rest) := by
  have hcl := not_atClose_of_opens (hs ▸ h.opens hf.edge.notBare)
  cases h with
  | one h => exact allParts_last F st hcl (reads_item h hc hf hs) he
  | @more u c t j t' hu hj h =>
    rw [List.append_assoc, List.append_assoc] at hs
    have ho := h.opens hf.edge.notBare
    obtain ⟨hf', hor, b, hb, hand⟩ := hj.reads ho
    refine allParts_cons F st hcl (reads_item hu hc.1 hf' hs) hor ?_
    rw [hand]
    refine reads_conjuncts h hc.2 hf he ?_
    rw [Text.skipBlanks_append hb, ho.blank]

theorem reads_alternatives {q : Alternatives} {t cs rest : List Char}
    (h : SpellsAlternatives q t) (hq : q.Resolves st) (hf : Follows rest)
    (he : atClose (Text.skipBlanks rest) = true) (hs : Text.skipBlanks cs = t ++ rest) :
    (anyParts F st cs).Returns (q.parts F st, Text.skipBlanks rest) := by
  have hcl := not_atClose_of_opens (hs ▸ h.opens hf.edge.notBare)
  cases h with
  | one h =>
    exact anyParts_last F st hcl (reads_conjuncts h hq hf (.inr he) hs) (atOr_of_atClose he)
  | @more c q t b k b' t' hc hb hk hb' h =>
    simp only [List.append_assoc] at hs
    obtain ⟨hf', hor, hd⟩ := at_or hb hk hb' (t' ++ rest)
    refine anyParts_cons F st hcl (reads_conjuncts hc hq.1 hf' (.inl hor) hs) hor ?_
    rw [hd]
    refine reads_alternatives h hq.2 hf he ?_
    rw [Text.skipBlanks_append hb'.2, (h.opens hf.edge.notBare).blank]

end

/-- A text that spells a query whose compared fields resolve is compiled to the constraint that
the query stands for. -/
theorem compile_spelling {q : Alternatives} {text : String}
    (h : SpellsAlternatives q text.toList) (hq : q.Resolves st) :
    (compile F st text).result = .ok (q.meaning F st) := by
  have ho := h.opens notBare_nil
  have hs : Text.skipBlanks text.toList = text.toList ++ [] := by
    rw [← ho.blank, List.append_nil]
  have hp := reads_alternatives F st h hq follows_nil rfl hs
  have hr := (returns_combine hp F.any).result
  rw [compile, compileAny, hr]
  rfl

end Queries

def sampleQuery : Alternatives :=
  .more (.one (.comparison "name" .notEqual .missing))
    (.one (.more (.negation (.group (.one (.more (.comparison "age" .greaterOrEqual (.text "21"))
      (.one (.phrase "a\"b")))))) (.more (.tag "Y" " 7 ") (.one (.word "or")))))

def sampleText : String := "name!=- Or !(age >= 21 AND \"a\\\"b\")  ||Y: 7 || && o\\r"

theorem sampleQuery_spelled : SpellsAlternatives sampleQuery sampleText.toList := by
  have hg : Gap [' '] := by simp [Gap, Blanks, Text.isBlank]
  have hg₂ : Gap [' ', ' '] := by simp [Gap, Blanks, Text.isBlank]
  have hname : Plain "name" "name".toList := plain_of_isBare (by simp [isBare]) (by simp) (by simp)
    (by simp)
  have hage : Plain "age" "age".toList := plain_of_isBare (by simp [isBare]) (by simp) (by simp)
    (by simp)
  have h21 : Plain "21" "21".toList := plain_of_isBare (by simp [isBare]) (by simp) (by simp)
    (by simp)
  have hor : Plain "or" ['o', '\\', 'r'] := ⟨.bare rfl (.marked .nil), by simp, by simp, by simp⟩
  have htag : TagPart "Y" ∧ TagPart " 7 " := by simp [TagPart, Text.isBlank]
  have h₁ : SpellsItem (.comparison "name" .notEqual .missing)
      ("name".toList ++ ([] ++ ("!=".toList ++ ([] ++ ['-'])))) :=
    .comparison (.plain hname) (by simp [Blanks]) (by simp [operatorTexts]) (by simp [Blanks])
      .missing
  have h₂ : SpellsItem (.comparison "age" .greaterOrEqual (.text "21"))
      ("age".toList ++ ([' '] ++ (">=".toList ++ ([' '] ++ "21".toList)))) :=
    .comparison (.plain hage) hg.2 (by simp [operatorTexts]) hg.2 (.plain h21 (by simp))
  have h₃ := SpellsItem.group (.one (.more h₂ (.word hg (k := "AND".toList) (by simp) hg)
    (.one (.phrase "a\"b"))))
  have h₄ := SpellsConjuncts.more (.tag htag.1 (by simp) htag.2) (.ampersands hg hg)
    (.one (.word hor))
  exact SpellsAlternatives.more (.one h₁) hg (k := "Or".toList) (by simp) hg
    (.one (.more (.negation h₃) (.blanks hg₂) h₄))

theorem compile_sampleText :
    SpellsAlternatives sampleQuery sampleText.toList ∧ sampleQuery.Resolves sampleSetting ∧
      (compile FilterTree.factory sampleSetting sampleText).result = .ok (some (.any
        [.compare ⟨"name"⟩ .notEqual .null,
          .all [.negate (.all [.compare ⟨"age"⟩ .greaterOrEqual (.int 21),
              .all [.any [.search ⟨"name"⟩ .equal "a\"b"]]]),
            .compare ⟨"age"⟩ .equal (.int 7),
            .all [.any [.search ⟨"name"⟩ .like "or"]]]])) := by
  have hr : sampleQuery.Resolves sampleSetting := by
    simp only [sampleQuery, Alternatives.Resolves, Conjuncts.Resolves, Item.Resolves, and_true]
    decide
  refine ⟨sampleQuery_spelled, hr, ?_⟩
  rw [compile_spelling FilterTree.factory sampleSetting sampleQuery_spelled hr]
  cbv

end FilterQuery.Query
