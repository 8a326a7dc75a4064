import FilterQuery.Filter.Tree
import FilterQuery.Proofs.Query.Rules

/-!
The text of tags. Reading drops a pair of bars on either side and nothing else but blanks around
the parts and the first colon, so a tag that was read is written as a text that reads as the same
tag, and these are all the tags that do. In a query, the payload of a tag ends in front of the
first pair of bars behind the opening one. It has no pair of bars in it, so that it reads the same
with and without bars around it.
-/
namespace FilterQuery

namespace Tag

/-- What opens and closes a tag. -/
def bars : List Char := ['|', '|']

theorem dropOpening_of_not_prefix {cs : List Char} (h : ¬bars <+: cs) : dropOpening cs = cs := by
  rw [dropOpening]
  rintro ds rfl
  exact h (List.prefix_append bars ds)

theorem dropClosing_of_not_suffix {cs : List Char} (h : ¬bars <:+ cs) : dropClosing cs = cs := by
  have hr : ¬bars <+: cs.reverse := fun hp => h (List.reverse_prefix.mp hp)
  rw [dropClosing, dropOpening_of_not_prefix hr, List.reverse_reverse]

theorem dropClosing_append_bars (cs : List Char) : dropClosing (cs ++ bars) = cs := by
  rw [dropClosing, List.reverse_append]
  exact List.reverse_reverse cs

/-- The bars around a payload are dropped, whatever the payload itself begins and ends with. -/
theorem read_enclosed (payload : String) :
    read ("||" ++ payload ++ "||") = ofPayload payload.toList := by
  have ht : ("||" ++ payload ++ "||").toList = bars ++ (payload.toList ++ bars) := by simp [bars]
  have hd : dropOpening (bars ++ (payload.toList ++ bars)) = payload.toList ++ bars := rfl
  rw [read, ht, hd, dropClosing_append_bars]

/-- A payload without a pair of bars in it is read as it is. -/
theorem read_of_not_infix {payload : List Char} (h : ¬bars <:+: payload) :
    read (String.ofList payload) = ofPayload payload := by
  have hopening : ¬bars <+: payload := fun hp => h hp.isInfix
  have hclosing : ¬bars <:+ payload := fun hs => h hs.isInfix
  rw [read, String.toList_ofList, dropOpening_of_not_prefix hopening,
    dropClosing_of_not_suffix hclosing]

/-- A part that is not missing: something is in it, and no blanks are around it. -/
def IsPart (s : String) : Prop := s ≠ "" ∧ Text.trim s = s

theorem part?_eq_some {cs : List Char} {s : String} (h : part? cs = some s) :
    s ≠ "" ∧ Text.trimChars cs = s.toList := by
  rw [part?] at h
  split at h
  · cases h
  · next hne =>
    obtain rfl := Option.some.inj h
    exact ⟨by simpa using hne, String.toList_ofList.symm⟩

theorem isPart_of_part? {cs : List Char} {s : String} (h : part? cs = some s) : IsPart s := by
  obtain ⟨hne, htrim⟩ := part?_eq_some h
  refine ⟨hne, ?_⟩
  rw [← String.toList_inj, Text.toList_trim, ← htrim, Text.trimChars_trimChars]

theorem IsPart.part?_toList {s : String} (h : IsPart s) : part? s.toList = some s := by
  obtain ⟨hne, htrim⟩ := h
  have hchars : Text.trimChars s.toList = s.toList := by rw [← Text.toList_trim, htrim]
  rw [part?, hchars, if_neg (by simpa using hne), String.ofList_toList]

theorem part?_getD {part : Option String} (h : ∀ s ∈ part, IsPart s) :
    part? (part.getD "").toList = part := by
  cases part with
  | none => rfl
  | some s => exact (h s rfl).part?_toList

/-- A text holds a part, with nothing but blanks around it. -/
inductive HoldsPart : List Char → Option String → Prop where
  | missing {blanks : List Char} (h : ∀ c ∈ blanks, Text.isBlank c = true) :
      HoldsPart blanks none
  | between {front back : List Char} {s : String} (hf : ∀ c ∈ front, Text.isBlank c = true)
      (hs : IsPart s) (hb : ∀ c ∈ back, Text.isBlank c = true) :
      HoldsPart (front ++ s.toList ++ back) (some s)

theorem holdsPart_part? (cs : List Char) : HoldsPart cs (part? cs) := by
  obtain ⟨front, back, hf, hb, hcs⟩ := Text.exists_trimChars cs
  cases hp : part? cs with
  | none =>
    have htrim : Text.trimChars cs = [] := by simpa [part?] using hp
    rw [htrim, List.append_nil] at hcs
    rw [hcs]
    exact .missing (List.forall_mem_append.mpr ⟨hf, hb⟩)
  | some s =>
    rw [(part?_eq_some hp).2] at hcs
    rw [hcs]
    exact .between hf (isPart_of_part? hp) hb

theorem HoldsPart.subset {cs : List Char} {s : String} (h : HoldsPart cs (some s)) :
    s.toList ⊆ cs := by
  cases h with
  | between => exact (List.infix_append _ _ _).subset

theorem HoldsPart.isPart {cs : List Char} {s : String} (h : HoldsPart cs (some s)) :
    IsPart s := by
  cases h with
  | between _ hs _ => exact hs

/-- A payload holds the parts of a tag, with the first colon between them. -/
inductive Holds : List Char → Tag → Prop where
  | type {cs : List Char} {type : Option String} (hc : ':' ∉ cs) (ht : HoldsPart cs type) :
      Holds cs ⟨type, none⟩
  | both {cs ds : List Char} {type value : Option String} (hc : ':' ∉ cs)
      (ht : HoldsPart cs type) (hv : HoldsPart ds value) : Holds (cs ++ ':' :: ds) ⟨type, value⟩

theorem bne_colon_of_mem {cs : List Char} (h : ':' ∉ cs) : ∀ c ∈ cs, (c != ':') = true := by
  intro c hc
  simpa using ne_of_mem_of_not_mem hc h

theorem ofPayload_of_not_mem {cs : List Char} (h : ':' ∉ cs) : ofPayload cs = ⟨part? cs, none⟩ := by
  have hp := bne_colon_of_mem h
  rw [ofPayload, List.takeWhile_eq_self_iff.mpr hp, List.dropWhile_eq_nil_iff.mpr hp]
  rfl

theorem ofPayload_append {cs : List Char} (h : ':' ∉ cs) (ds : List Char) :
    ofPayload (cs ++ ':' :: ds) = ⟨part? cs, part? ds⟩ := by
  have hp := bne_colon_of_mem h
  rw [ofPayload, List.takeWhile_append_of_pos hp, List.dropWhile_append_of_pos hp]
  simp

theorem holds_ofPayload (payload : List Char) : Holds payload (ofPayload payload) := by
  by_cases h : ':' ∈ payload
  · obtain ⟨cs, ds, rfl, hc⟩ := List.eq_append_cons_of_mem h
    rw [ofPayload_append hc]
    exact .both hc (holdsPart_part? cs) (holdsPart_part? ds)
  · rw [ofPayload_of_not_mem h]
    exact .type h (holdsPart_part? payload)

/-- The tags that texts read as. -/
structure Readable (t : Tag) : Prop where
  type : ∀ s ∈ t.type, IsPart s ∧ ':' ∉ s.toList
  value : ∀ s ∈ t.value, IsPart s

theorem Holds.readable {payload : List Char} {t : Tag} (h : Holds payload t) : t.Readable := by
  have htype {cs : List Char} {type : Option String} (hc : ':' ∉ cs) (ht : HoldsPart cs type) :
      ∀ s ∈ type, IsPart s ∧ ':' ∉ s.toList := by
    rintro s rfl
    exact ⟨ht.isPart, fun hm => hc (ht.subset hm)⟩
  cases h with
  | type hc ht => exact ⟨htype hc ht, by simp⟩
  | both hc ht hv =>
    refine ⟨htype hc ht, ?_⟩
    rintro s rfl
    exact hv.isPart

theorem readable_read (text : String) : (read text).Readable := (holds_ofPayload _).readable

theorem read_of_readable {t : Tag} (h : t.Readable) : read t.write = t := by
  obtain ⟨type, value⟩ := t
  have hw : (⟨type, value⟩ : Tag).write =
      "||" ++ String.ofList ((type.getD "").toList ++ ':' :: (value.getD "").toList) ++ "||" := by
    rw [← String.toList_inj]
    simp [write]
  have hc : ':' ∉ (type.getD "").toList := by
    cases type with
    | none => simp
    | some s => exact (h.type s rfl).2
  rw [hw, read_enclosed, String.toList_ofList, ofPayload_append hc,
    part?_getD fun s hs => (h.type s hs).1, part?_getD h.value]

theorem read_write_eq_self_iff {t : Tag} : read t.write = t ↔ t.Readable :=
  ⟨fun h => h ▸ readable_read t.write, read_of_readable⟩

end Tag

namespace Query

/-- Behind the opening bars of a tag stand its payload and the closing bars, which are the first
pair there, or all of the text is payload. -/
inductive IsPayload : List Char → List Char → List Char → Prop where
  /-- The last bar of the payload, if it ended with one, would make a pair with the next. -/
  | closed {payload : List Char} (h : ¬Tag.bars <:+: payload ++ ['|']) (rest : List Char) :
      IsPayload (payload ++ Tag.bars ++ rest) payload rest
  | unclosed {payload : List Char} (h : ¬Tag.bars <:+: payload) : IsPayload payload payload []

variable {unread payload rest : List Char}

theorem IsPayload.not_infix (h : IsPayload unread payload rest) : ¬Tag.bars <:+: payload := by
  cases h with
  | closed h => exact fun hp => h (hp.trans (List.prefix_append payload ['|']).isInfix)
  | unclosed h => exact h

theorem IsPayload.cons (h : IsPayload unread payload rest) {c : Char}
    (hc : ¬Tag.bars <+: c :: unread) : IsPayload (c :: unread) (c :: payload) rest := by
  cases h with
  | closed h rest =>
    have hpair : ¬Tag.bars <:+: c :: payload ++ ['|'] := by
      intro hp
      rcases List.infix_cons_iff.mp hp with hp | hp
      · have hfront : c :: (payload ++ ['|']) <+: c :: (payload ++ Tag.bars ++ rest) :=
          ⟨'|' :: rest, by simp [Tag.bars]⟩
        exact hc (hp.trans hfront)
      · exact h hp
    exact .closed hpair rest
  | unclosed h =>
    refine .unclosed ?_
    intro hp
    rcases List.infix_cons_iff.mp hp with hp | hp
    · exact hc hp
    · exact h hp

theorem isPayload_takePayload (unread : List Char) :
    IsPayload unread (takePayload unread).1 (takePayload unread).2 := by
  fun_induction takePayload unread with
  | case1 => exact .unclosed (by decide)
  | case2 rest =>
    have hpair : ¬Tag.bars <:+: [] ++ ['|'] := by decide
    exact .closed hpair rest
  | case3 c cs hn taken rest ht ih =>
    rw [ht] at ih
    refine ih.cons ?_
    rintro ⟨ds, hds⟩
    obtain ⟨rfl, rfl⟩ := List.cons.inj hds
    exact hn ds rfl rfl

/-- What a text reads as is written as a text that reads the same, and a tag reads back just if
texts read as it. Behind the opening bars of a tag in a query, the payload that is taken has no
pair of bars in it, so it reads the same with bars around it. The tag it reads as, for which the
unit is compiled, lacks nothing of it but blanks around the parts and the first colon. -/
theorem tagText_readsBack :
    (∀ text : String, Tag.read (Tag.read text).write = Tag.read text) ∧
      (∀ t : Tag, Tag.read t.write = t ↔ t.Readable) ∧
      ∀ unread payload rest : List Char, takePayload unread = (payload, rest) →
        IsPayload unread payload rest ∧ ¬Tag.bars <:+: payload ∧
          Tag.read (String.ofList payload) = Tag.read ("||" ++ String.ofList payload ++ "||") ∧
          Tag.Holds payload (Tag.read (String.ofList payload)) ∧
          ∀ {C : Type} (F : Factory C) (st : Setting) (cs : List Char),
            Text.skipBlanks cs = Tag.bars ++ unread →
            (compileUnit F st cs).result =
              .ok (tagEquality F st (Tag.read (String.ofList payload)), rest) := by
  refine ⟨fun text => Tag.read_of_readable (Tag.readable_read text),
    fun t => Tag.read_write_eq_self_iff, ?_⟩
  intro unread payload rest ht
  have hpayload : IsPayload unread payload rest := by
    simpa only [ht] using isPayload_takePayload unread
  have hbars := hpayload.not_infix
  refine ⟨hpayload, hbars, ?_, ?_, ?_⟩
  · rw [Tag.read_of_not_infix hbars, Tag.read_enclosed, String.toList_ofList]
  · rw [Tag.read_of_not_infix hbars]
    exact Tag.holds_ofPayload payload
  · intro C F st cs hs
    have hunit : Text.skipBlanks cs = '|' :: '|' :: unread := hs
    have hresult := (compileUnit_tag_yields (admits_true F st) hunit).result
    rwa [ht, tagged_eq_tagEquality] at hresult

theorem tagText_sampleBars :
    Tag.read (Tag.read " ||| a: |b:c|||").write = Tag.read " ||| a: |b:c|||" ∧
      takePayload "y: |7:| |||| bo".toList = ("y: |7:| ".toList, "|| bo".toList) ∧
      ¬Tag.bars <:+: "y: |7:| ".toList ∧ Tag.read "y: |7:| " = Tag.read "||y: |7:| ||" ∧
      Text.skipBlanks "  ||y: |7:| |||| bo".toList = Tag.bars ++ "y: |7:| |||| bo".toList ∧
      (compileUnit FilterTree.factory sampleSetting "  ||y: |7:| |||| bo".toList).result =
        .ok (some (.compare ⟨"age"⟩ .equal (.string "|7:|")), "|| bo".toList) := by
  have ht : takePayload "y: |7:| |||| bo".toList = ("y: |7:| ".toList, "|| bo".toList) := by
    decide
  have hs : Text.skipBlanks "  ||y: |7:| |||| bo".toList =
      Tag.bars ++ "y: |7:| |||| bo".toList := by decide
  obtain ⟨hback, -, htaken⟩ := tagText_readsBack
  obtain ⟨-, hbars, hread, -, hunit⟩ := htaken _ _ _ ht
  refine ⟨hback _, ht, hbars, hread, hs, ?_⟩
  have htag : tagEquality FilterTree.factory sampleSetting
      (Tag.read (String.ofList "y: |7:| ".toList)) =
        some (.compare ⟨"age"⟩ .equal (.string "|7:|")) := by cbv
  rw [hunit FilterTree.factory sampleSetting _ hs, htag]

end Query
end FilterQuery
