import FilterQuery.Proofs.Query.Unread

/-!
What is taken off a text. A scanner returns characters of its text and no others: backslashes,
quotes and bars may be dropped, and nothing is made up.
-/
namespace FilterQuery.Query

theorem takeEscapedWhile_subset (p : List Char → Bool) (cs : List Char) :
    (takeEscapedWhile p cs).1 ⊆ cs := by
  fun_induction takeEscapedWhile p cs with
  | case1 => exact List.nil_subset _
  | case2 c cs h taken rest ht ih =>
    rw [ht] at ih
    have hc : c :: taken ⊆ c :: cs := List.cons_subset_cons c ih
    exact List.Subset.trans hc (List.subset_cons_self _ _)
  | case3 => exact List.nil_subset _
  | case4 c cs _ h taken rest ht ih =>
    rw [ht] at ih
    split
    · exact List.Subset.trans ih (List.subset_cons_self _ _)
    · exact List.cons_subset_cons c ih
  | case5 => exact List.nil_subset _

theorem takeEscaped_subset (cs : List Char) : (takeEscaped cs).1 ⊆ cs := by
  fun_cases takeEscaped cs with
  | case1 => exact List.nil_subset _
  | case2 c cs => simp
  | case3 c cs => split <;> simp

theorem takeQuoted_subset (cs : List Char) : (takeQuoted cs).1 ⊆ cs :=
  takeEscapedWhile_subset _ cs

theorem takeWord_subset (cs : List Char) : (takeWord cs).1 ⊆ cs := by
  apply List.append_subset_of_subset_of_subset (takeEscaped_subset cs)
  exact List.Subset.trans (takeEscapedWhile_subset _ _) (takeEscaped_suffix cs).subset

theorem takeTerm_subset (cs : List Char) : (takeTerm cs).1.text.toList ⊆ cs := by
  fun_cases takeTerm cs with
  | case1 cs taken rest ht =>
    have hq := takeQuoted_subset cs
    rw [ht] at hq
    rw [String.toList_ofList]
    exact List.Subset.trans hq (List.subset_cons_self _ _)
  | case2 cs _ taken rest ht =>
    have hw := takeWord_subset cs
    rwa [ht, ← String.toList_ofList (l := taken)] at hw

theorem extendTerm_subset {t : Term} {cs ds : List Char} (ht : t.text.toList ⊆ ds)
    (hs : cs ⊆ ds) : (extendTerm t cs).1.text.toList ⊆ ds := by
  rw [extendTerm, String.toList_append, String.toList_ofList]
  have htaken := takeEscapedWhile_subset (fun cs => atOperator cs || inWord cs) cs
  exact List.append_subset_of_subset_of_subset ht (List.Subset.trans htaken hs)

theorem takeValue_subset (cs : List Char) : (takeValue cs).1.text.toList ⊆ cs := by
  have hb := (skipBlanks_suffix cs).subset
  fun_cases takeValue cs with
  | case1 rest hs taken rest' ht =>
    have hq := takeQuoted_subset rest
    rw [ht] at hq
    rw [hs] at hb
    rw [String.toList_ofList]
    exact List.Subset.trans hq (List.Subset.trans (List.subset_cons_self _ _) hb)
  | case2 _ taken rest' ht =>
    have hv := takeEscapedWhile_subset inValue (Text.skipBlanks cs)
    rw [ht] at hv
    rw [String.toList_ofList]
    exact List.Subset.trans hv hb

theorem takePayload_subset (cs : List Char) : (takePayload cs).1 ⊆ cs := by
  fun_induction takePayload cs with
  | case1 => exact List.nil_subset _
  | case2 cs => exact List.nil_subset _
  | case3 c cs _ taken rest ht ih =>
    rw [ht] at ih
    exact List.cons_subset_cons c ih

theorem dropOpening_subset (cs : List Char) : Tag.dropOpening cs ⊆ cs := by
  fun_cases Tag.dropOpening cs with
  | case1 cs => exact (suffix_cons_cons List.suffix_rfl).subset
  | case2 => exact List.Subset.refl _

theorem dropClosing_subset (cs : List Char) : Tag.dropClosing cs ⊆ cs := by
  have hr := dropOpening_subset cs.reverse
  intro c hc
  exact List.mem_reverse.mp (hr (List.mem_reverse.mp hc))

theorem trimChars_subset (cs : List Char) : Text.trimChars cs ⊆ cs := by
  intro c hc
  have hfront := (skipBlanks_suffix _).subset (List.mem_reverse.mp hc)
  exact (skipBlanks_suffix cs).subset (List.mem_reverse.mp hfront)

/-- The value of a tag is a part of its payload. -/
theorem read_value_subset {payload : List Char} {type : Option String} {value : String}
    (h : Tag.read (String.ofList payload) = ⟨type, some value⟩) : value.toList ⊆ payload := by
  rw [Tag.read, String.toList_ofList, Tag.ofPayload] at h
  have hpart := (Tag.mk.inj h).2
  rw [Tag.part?] at hpart
  split at hpart
  · cases hpart
  · obtain rfl := Option.some.inj hpart
    rw [String.toList_ofList]
    intro c hc
    have hback := (List.tail_suffix _).subset (trimChars_subset _ hc)
    have hinner := (List.dropWhile_suffix _).subset hback
    exact dropOpening_subset _ (dropClosing_subset _ hinner)

end FilterQuery.Query
