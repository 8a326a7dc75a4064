import FilterQuery.Proofs.Query.Independence
import FilterQuery.Proofs.Query.Reading

/-!
The one error of a compilation. It points at an exclamation mark that begins no operator, behind a
field that resolves, and the text behind the mark has no part in it.
-/
namespace FilterQuery.Query

open Build

variable {C Handler : Type} [TagHandler Handler C] {F : Factory C} {st : Setting Handler}

/-- A compilation fails where its run stops. -/
theorem compile_eq_error_iff {query : String} {e : CompileError} :
    (compile F st query).result = .error e ↔
      ∃ s, (compileAny F st query.toList).result = .error s ∧ s.error query.toList = e := by
  rw [compile]
  cases h : (compileAny F st query.toList).result <;> simp

/-- The error `e` points at a mark in the query `cs` that begins no operator, and names the field
in front of it. -/
structure PointsAtMark (st : Setting Handler) (cs : List Char) (e : CompileError) : Prop where
  mark : cs[e.position]? = some '!'
  bare : cs[e.position + 1]? ≠ some '='
  found : e.foundText = "'!'"
  resolves : (st.schema.resolve? st.root ⟨e.field⟩).isSome
  field : '\\' ∉ cs → e.field.toList <:+ cs.take e.position

/-- The error of a stop in front of a mark counts the characters before it. -/
theorem stop_error_mark (field : String) (before tail : List Char) :
    Stop.error ⟨field, '!' :: tail⟩ (before ++ '!' :: tail) =
      ⟨field, some '!', before.length⟩ := by
  simp [Stop.error]

theorem pointsAtMark_of_stopsIn {cs : List Char} {s : Stop} (h : StopsIn st cs s) :
    PointsAtMark st cs (s.error cs) := by
  obtain ⟨field, unread⟩ := s
  obtain ⟨tail, rfl, ht⟩ := h.mark
  obtain ⟨before, rfl, hf⟩ := h.place
  rw [stop_error_mark]
  exact {
    mark := by simp
    bare := by simpa [List.getElem?_append, ← List.head?_eq_getElem?] using ht
    found := rfl
    resolves := h.resolves
    field := by simpa using hf }

/-- Other text behind the mark leaves the error as it is. -/
theorem compile_error_of_append {query : String} {e : CompileError}
    (h : (compile F st query).result = .error e) {text : List Char} (ht : text.head? ≠ some '=') :
    (compile F st (String.ofList (query.toList.take (e.position + 1) ++ text))).result =
      .error e := by
  obtain ⟨⟨field, unread⟩, hs, rfl⟩ := compile_eq_error_iff.mp h
  have hstop := (rules_leave.1 query.toList).stop _ hs
  obtain ⟨tail, rfl, htail⟩ := hstop.mark
  obtain ⟨before, hq, -⟩ := hstop.place
  have hmark := Alike.mark htail ht
  have hrun := ((rules_agree hmark).1 query.toList before hq).error field [] hs
  have he : Stop.error ⟨field, '!' :: tail⟩ query.toList =
      ⟨field, some '!', before.length⟩ := by
    rw [hq]
    exact stop_error_mark field before tail
  have hnew : query.toList.take (before.length + 1) ++ text = before ++ '!' :: text := by
    simp [hq, List.take_append]
  rw [he, hnew, compile_eq_error_iff, String.toList_ofList]
  exact ⟨⟨field, '!' :: text⟩, hrun, stop_error_mark field before text⟩

/-- A field outside quotes and a bare mark directly behind it stop the unit that they begin. -/
theorem compileUnit_stops {field : String} {cs text : List Char} {r : Resolved}
    (hf : Plain field cs) (hr : st.schema.resolve? st.root ⟨field⟩ = some r)
    (ht : text.head? ≠ some '=') :
    (compileUnit F st (cs ++ '!' :: text)).result = .error ⟨field, '!' :: text⟩ := by
  have hop : Operator.at? ('!' :: text) = none := matchAt_mark ht
  have hb : Text.skipBlanks ('!' :: text) = '!' :: text := Text.skipBlanks_cons (by decide) text
  have hterm : takeTerm (cs ++ '!' :: text) = (⟨field, false⟩, '!' :: text) :=
    takeTerm_plain hf (.inr (by simp))
  obtain ⟨c, ds, rfl, hc⟩ := hf.escaped.exists_cons hf.ne_nil
  have hlead := isLeading_of_isBare_or hc
  have hblank := isBlank_of_isOpening (isOpening_of_isLeading hlead)
  have hclose : atClose (c :: (ds ++ '!' :: text)) = false := by
    simpa [atClose] using ne_of_isLeading hlead (d := ')') (by decide)
  rw [List.cons_append] at hterm ⊢
  rw [compileUnit_of_isLeading F st hlead (Text.skipBlanks_cons hblank _), compileTerm,
    skipStray_of_isLeading hlead, hterm]
  simp [hclose, hb, compileOperation, hr, compileComparison, hop, stop]

/-- A text that begins with a unit fails as the unit does. -/
theorem compileAny_stops {cs : List Char} {s : Stop} (hc : ¬atClose cs = true)
    (h : (compileUnit F st cs).result = .error s) : (compileAny F st cs).result = .error s := by
  have hparts : (allParts F st cs).result = .error s := by
    rw [allParts_eq hc]
    exact bind_result_eq_error.mpr (.inl h)
  have hall : (compileAll F st cs).result = .error s := by
    rw [compileAll]
    exact bind_result_eq_error.mpr (.inl hparts)
  have hany : (anyParts F st cs).result = .error s := by
    rw [anyParts_eq hc]
    exact bind_result_eq_error.mpr (.inl hall)
  rw [compileAny]
  exact bind_result_eq_error.mpr (.inl hany)

/-- Whatever handles its tags, a compilation fails at a bare mark behind a field and nowhere else,
and what follows the mark does not matter; a query that begins with a field outside quotes and a
bare mark does fail. -/
theorem compile_rejects (F : Factory C) (st : Setting Handler) (query : String) :
    (∀ e, (compile F st query).result = .error e →
      PointsAtMark st query.toList e ∧
        ∀ text : List Char, text.head? ≠ some '=' →
          (compile F st (String.ofList (query.toList.take (e.position + 1) ++ text))).result =
            .error e) ∧
      ('!' ∉ query.toList → ∃ c, (compile F st query).result = .ok c) ∧
      ∀ (field : String) (cs text : List Char), Plain field cs →
        (st.schema.resolve? st.root ⟨field⟩).isSome → text.head? ≠ some '=' →
        query.toList = cs ++ '!' :: text →
        (compile F st query).result = .error ⟨field, some '!', cs.length⟩ := by
  have hpoints (e : CompileError) (h : (compile F st query).result = .error e) :
      PointsAtMark st query.toList e := by
    obtain ⟨s, hs, rfl⟩ := compile_eq_error_iff.mp h
    exact pointsAtMark_of_stopsIn ((rules_leave.1 query.toList).stop s hs)
  refine ⟨fun e h => ⟨hpoints e h, fun text ht => compile_error_of_append h ht⟩, ?_, ?_⟩
  · intro hn
    cases h : (compile F st query).result with
    | error e => exact absurd (List.mem_of_getElem? (hpoints e h).mark) hn
    | ok c => exact ⟨c, rfl⟩
  · intro field cs text hf hr ht hq
    obtain ⟨r, hr⟩ := Option.isSome_iff_exists.mp hr
    obtain ⟨c, ds, rfl, hc⟩ := hf.escaped.exists_cons hf.ne_nil
    have hclose : ¬atClose (c :: ds ++ '!' :: text) = true := by
      simpa [atClose] using ne_of_isLeading (isLeading_of_isBare_or hc) (d := ')') (by decide)
    rw [compile_eq_error_iff, hq]
    exact ⟨_, compileAny_stops hclose (compileUnit_stops hf hr ht), stop_error_mark field _ text⟩

theorem compile_sampleMark :
    (compile FilterTree.factory sampleSetting "bo or (name!5)").result =
        .error ⟨"name", some '!', 11⟩ ∧
      PointsAtMark sampleSetting "bo or (name!5)".toList ⟨"name", some '!', 11⟩ ∧
      (compile FilterTree.factory sampleSetting "bo or (name!) age>").result =
        .error ⟨"name", some '!', 11⟩ ∧
      (∃ c, (compile FilterTree.factory sampleSetting "bo or (name 5)").result = .ok c) ∧
      (compile FilterTree.factory sampleSetting "age! or bo").result =
        .error ⟨"age", some '!', 3⟩ := by
  have he : (compile FilterTree.factory sampleSetting "bo or (name!5)").result =
      .error ⟨"name", some '!', 11⟩ := by cbv
  obtain ⟨hpoints, hother⟩ :=
    (compile_rejects FilterTree.factory sampleSetting "bo or (name!5)").1 _ he
  have hok := (compile_rejects FilterTree.factory sampleSetting "bo or (name 5)").2.1 (by simp)
  have hage : Plain "age" "age".toList := plain_of_isBare (by simp [isBare]) (by simp) (by simp)
    (by simp)
  have hmark := (compile_rejects FilterTree.factory sampleSetting "age! or bo").2.2 "age"
    "age".toList " or bo".toList hage (by decide) (by simp) (by decide)
  exact ⟨he, hpoints, hother ") age>".toList (by simp), hok, hmark⟩

end FilterQuery.Query
