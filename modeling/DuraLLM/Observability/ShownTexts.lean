import DuraLLM.Observability.Redaction

/-! # The texts a redacted record shows

Every text of a record is masked, or cut to a preview, or stands under a sensitive
key.  What is a text of the redacted record comes from one of these.
-/

namespace JsonRaw

/-- A value in a value. -/
inductive Within (part : JsonRaw) : JsonRaw → Prop where
  | here : Within part part
  | item {items : List JsonRaw} {item : JsonRaw} (place : item ∈ items)
      (inside : Within part item) : Within part (.arr items)
  | member {members : List (String × JsonRaw)} {key : String} {value : JsonRaw}
      (place : (key, value) ∈ members) (inside : Within part value) : Within part (.obj members)

theorem Within.of_str {part : JsonRaw} {text : String} (inside : Within part (.str text)) :
    part = .str text := by
  cases inside with
  | here => rfl

end JsonRaw

namespace DuraLLM

open String (ofList)

/-- How a text is shown. -/
inductive Showing where
  | masked
  | previewed
  deriving DecidableEq

/-- `value` has the text, not under a sensitive key. -/
inductive Shows (lib : LogReaders) : JsonRaw → Showing → String → Prop where
  | text {text : String} : Shows lib (.str text) .masked text
  | item {items : List JsonRaw} {item : JsonRaw} {showing : Showing} {text : String}
      (place : item ∈ items) (inside : Shows lib item showing text) :
      Shows lib (.arr items) showing text
  | prompt {members : List (String × JsonRaw)} {key text : String}
      (place : (key, .str text) ∈ members) (free : isSensitiveKey lib key = false)
      (prompt : key ∈ promptKeys) : Shows lib (.obj members) .previewed text
  | member {members : List (String × JsonRaw)} {key : String} {value : JsonRaw}
      {showing : Showing} {text : String} (place : (key, value) ∈ members)
      (free : isSensitiveKey lib key = false)
      (other : key ∉ promptKeys ∨ ∀ text, value ≠ .str text)
      (inside : Shows lib value showing text) : Shows lib (.obj members) showing text

/-- What is shown of a text. -/
def Showing.apply (showing : Showing) {α : Type} (carrier : Carrier α) (lib : LogReaders)
    (maxPromptPreviewChars : Int) (text : List α) : List α :=
  match showing with
  | .masked => maskText carrier lib text
  | .previewed => previewText carrier maxPromptPreviewChars text

/-- What takes the place of a member. -/
inductive MemberShown (lib : LogReaders) (maxPromptPreviewChars : Int) (key : String) :
    JsonRaw → JsonRaw → Prop where
  | sensitive {value : JsonRaw} (hidden : isSensitiveKey lib key = true) :
      MemberShown lib maxPromptPreviewChars key value (.str "[REDACTED]")
  | prompt {text : String} (free : isSensitiveKey lib key = false) (prompt : key ∈ promptKeys) :
      MemberShown lib maxPromptPreviewChars key (.str text)
        (.str (ofList (previewText .plain maxPromptPreviewChars text.toList)))
  | other {value : JsonRaw} (free : isSensitiveKey lib key = false)
      (other : key ∉ promptKeys ∨ ∀ text, value ≠ .str text) :
      MemberShown lib maxPromptPreviewChars key value
        (redactSensitiveData lib maxPromptPreviewChars value)

section Values

variable {lib : LogReaders} {maxPromptPreviewChars : Int} {value : JsonRaw}

theorem mem_redactItems {items : List JsonRaw} {shown : JsonRaw} :
    shown ∈ redactItems lib maxPromptPreviewChars items ↔
      ∃ item ∈ items, redactSensitiveData lib maxPromptPreviewChars item = shown := by
  induction items with
  | nil => simp [redactItems]
  | cons item items ih => simp [redactItems, ih, eq_comm]

theorem exists_memberShown (lib : LogReaders) (maxPromptPreviewChars : Int) (key : String) (value : JsonRaw) (members : List (String × JsonRaw)) :
    ∃ shown, redactMembers lib maxPromptPreviewChars ((key, value) :: members) =
        (key, shown) :: redactMembers lib maxPromptPreviewChars members ∧
      MemberShown lib maxPromptPreviewChars key value shown := by
  by_cases preview : key ∈ promptKeys ∧ ∃ text, value = .str text
  · obtain ⟨prompt, text, rfl⟩ := preview
    refine ⟨_, redactMembers.eq_2 _ _ _ _ _ (decide_eq_true prompt), ?_⟩
    split
    · next hidden => exact .sensitive hidden
    · next free => exact .prompt (Bool.not_eq_true _ ▸ free) prompt
  · refine ⟨_, redactMembers.eq_3 _ _ _ _ _ fun text prompt same =>
      preview ⟨of_decide_eq_true prompt, text, same⟩, ?_⟩
    split
    · next hidden => exact .sensitive hidden
    · next free =>
      refine .other (Bool.not_eq_true _ ▸ free) ?_
      by_cases prompt : key ∈ promptKeys
      · exact .inr fun text same => preview ⟨prompt, text, same⟩
      · exact .inl prompt

theorem MemberShown.unique {key : String} {shown shown' : JsonRaw}
    (one : MemberShown lib maxPromptPreviewChars key value shown)
    (two : MemberShown lib maxPromptPreviewChars key value shown') : shown = shown' := by
  cases one with
  | sensitive hidden =>
      cases two with
      | sensitive => rfl
      | prompt free | other free => simp [hidden] at free
  | prompt free prompt =>
      cases two with
      | sensitive hidden => simp [free] at hidden
      | prompt => rfl
      | other _ other =>
          rcases other with outside | noText
          · exact absurd prompt outside
          · exact absurd rfl (noText _)
  | other free other =>
      cases two with
      | sensitive hidden => simp [free] at hidden
      | prompt _ prompt =>
          rcases other with outside | noText
          · exact absurd prompt outside
          · exact absurd rfl (noText _)
      | other => rfl

theorem mem_redactMembers {members : List (String × JsonRaw)} {key : String} {shown : JsonRaw} :
    (key, shown) ∈ redactMembers lib maxPromptPreviewChars members ↔
      ∃ value, (key, value) ∈ members ∧ MemberShown lib maxPromptPreviewChars key value shown := by
  induction members with
  | nil => simp [redactMembers]
  | cons member members ih =>
      obtain ⟨key', value⟩ := member
      obtain ⟨shown', same, here⟩ := exists_memberShown lib maxPromptPreviewChars key' value
        members
      rw [same, List.mem_cons, ih]
      constructor
      · rintro (first | ⟨value, place, later⟩)
        · cases first
          exact ⟨value, List.mem_cons_self, here⟩
        · exact ⟨value, List.mem_cons_of_mem _ place, later⟩
      · rintro ⟨value', place, shows⟩
        rcases List.mem_cons.mp place with first | place
        · cases first
          exact .inl (by rw [here.unique shows])
        · exact .inr ⟨value', place, shows⟩

/-! ## The redacted value -/

/-- What is shown of a text is in the redacted value. -/
theorem Shows.within {showing : Showing} {text : String} (shows : Shows lib value showing text) :
    JsonRaw.Within (.str (ofList (showing.apply .plain lib maxPromptPreviewChars text.toList)))
      (redactSensitiveData lib maxPromptPreviewChars value) := by
  induction shows with
  | text => exact .here
  | item place _ ih => exact .item (mem_redactItems.mpr ⟨_, place, rfl⟩) ih
  | prompt place free prompt =>
      exact .member (mem_redactMembers.mpr ⟨_, place, .prompt free prompt⟩) .here
  | member place free other _ ih =>
      exact .member (mem_redactMembers.mpr ⟨_, place, .other free other⟩) ih

/-- A text of the redacted value is what is shown of one of the value's, or stands under
    a sensitive key. -/
theorem shows_of_within {shown : String}
    (inside : JsonRaw.Within (.str shown) (redactSensitiveData lib maxPromptPreviewChars value)) :
    shown = "[REDACTED]" ∨ ∃ showing text, Shows lib value showing text ∧
      shown = ofList (showing.apply .plain lib maxPromptPreviewChars text.toList) := by
  generalize same : redactSensitiveData lib maxPromptPreviewChars value = out at inside
  induction inside generalizing value with
  | here =>
      cases value with
      | str text =>
          cases same
          exact .inr ⟨.masked, text, .text, rfl⟩
      | scalar s => cases same
      | arr items => cases same
      | obj members => cases same
  | item place _ ih =>
      cases value with
      | arr items =>
          cases same
          obtain ⟨item, place', same⟩ := mem_redactItems.mp place
          exact (ih same).imp_right fun ⟨showing, text, shows, equal⟩ =>
            ⟨showing, text, .item place' shows, equal⟩
      | scalar s => cases same
      | str text => cases same
      | obj members => cases same
  | member place inside ih =>
      cases value with
      | obj members =>
          cases same
          obtain ⟨value, place', here⟩ := mem_redactMembers.mp place
          cases here with
          | sensitive hidden => exact .inl (JsonRaw.str.inj inside.of_str)
          | prompt free prompt =>
              exact .inr ⟨.previewed, _, .prompt place' free prompt, JsonRaw.str.inj inside.of_str⟩
          | other free other =>
              exact (ih rfl).imp_right fun ⟨showing, text, shows, equal⟩ =>
                ⟨showing, text, .member place' free other shows, equal⟩
      | scalar s => cases same
      | str text => cases same
      | arr items => cases same

/-- Under a sensitive key nothing is left, at any depth. -/
theorem sensitive_redacted {members : List (String × JsonRaw)}
    (inside : JsonRaw.Within (.obj members) (redactSensitiveData lib maxPromptPreviewChars value))
    {key : String} {shown : JsonRaw} (place : (key, shown) ∈ members)
    (hidden : isSensitiveKey lib key = true) : shown = .str "[REDACTED]" := by
  generalize same : redactSensitiveData lib maxPromptPreviewChars value = out at inside
  induction inside generalizing value with
  | here =>
      cases value with
      | obj members' =>
          cases same
          obtain ⟨value, -, here⟩ := mem_redactMembers.mp place
          exact here.unique (.sensitive hidden)
      | scalar s => cases same
      | arr items => cases same
      | str text => cases same
  | item place' _ ih =>
      cases value with
      | arr items =>
          cases same
          obtain ⟨item, -, same⟩ := mem_redactItems.mp place'
          exact ih same
      | scalar s => cases same
      | str text => cases same
      | obj members => cases same
  | member place' inside ih =>
      cases value with
      | obj members' =>
          cases same
          obtain ⟨value, -, here⟩ := mem_redactMembers.mp place'
          cases here with
          | sensitive => cases inside.of_str
          | prompt => cases inside.of_str
          | other => exact ih rfl
      | scalar s => cases same
      | str text => cases same
      | arr items => cases same

end Values

end DuraLLM
