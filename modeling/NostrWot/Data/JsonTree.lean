import NostrWot.Data.JsonText

namespace NostrWot.Data

/-! # JSON text of any value

`JSON.stringify` of nested values, and that a text is the text of one tree only.
-/

namespace Json

/-- What a JSON text can say. -/
inductive Tree where
  | scalar (value : Scalar)
  | array (items : List Tree)
  | object (fields : List (String × Tree))

section Text

variable (numbers : NumberText)

mutual

def treeText : Tree → List Char
  | .scalar value => scalarText numbers value
  | .array items => '[' :: [','].intercalate (itemTexts items) ++ [']']
  | .object fields => '{' :: [','].intercalate (entryTexts fields) ++ ['}']

def itemTexts : List Tree → List (List Char)
  | [] => []
  | item :: items => treeText item :: itemTexts items

def entryTexts : List (String × Tree) → List (List Char)
  | [] => []
  | (name, value) :: fields => (quote name.toList ++ ':' :: treeText value) :: entryTexts fields

end

def entryText (field : String × Tree) : List Char :=
  quote field.1.toList ++ ':' :: treeText numbers field.2

theorem itemTexts_eq (items : List Tree) : itemTexts numbers items = items.map (treeText numbers) := by
  induction items with
  | nil => rfl
  | cons item items ih => rw [itemTexts, ih, List.map_cons]

theorem entryTexts_eq (fields : List (String × Tree)) :
    entryTexts numbers fields = fields.map (entryText numbers) := by
  induction fields with
  | nil => rfl
  | cons field fields ih => rw [entryTexts, ih, List.map_cons, entryText]

theorem scalarText_plain (value : Scalar) : ∃ char rest, scalarText numbers value = char :: rest ∧
    char ≠ ']' ∧ char ≠ '}' ∧ char ≠ '[' ∧ char ≠ '{' := by
  cases value with
  | null => exact ⟨_, _, rfl, by decide⟩
  | boolean flag => cases flag <;> exact ⟨_, _, rfl, by decide⟩
  | text content => exact ⟨_, _, rfl, by decide⟩
  | number value =>
    obtain ⟨char, rest, shape, begins⟩ := numbers.begins value
    refine ⟨char, rest, shape, ?_⟩
    rcases begins with digit | rfl
    · refine ⟨?_, ?_, ?_, ?_⟩ <;> rintro rfl <;> contradiction
    · decide

theorem treeText_opens (tree : Tree) :
    ∃ char rest, treeText numbers tree = char :: rest ∧ char ≠ ']' ∧ char ≠ '}' := by
  cases tree with
  | scalar value =>
    obtain ⟨char, rest, shape, notBracket, notBrace, -⟩ := scalarText_plain numbers value
    exact ⟨char, rest, by rw [treeText, shape], notBracket, notBrace⟩
  | array items => exact ⟨'[', _, by rw [treeText]; rfl, by decide, by decide⟩
  | object fields => exact ⟨'{', _, by rw [treeText]; rfl, by decide, by decide⟩

end Text

variable {numbers : NumberText}

theorem treeText_reads (left right : Tree) (after rest : List Char) (delimits : Delimits after)
    (delimits' : Delimits rest)
    (same : treeText numbers left ++ after = treeText numbers right ++ rest) :
    left = right ∧ after = rest := by
  match left, right with
  | .scalar value, .scalar other =>
    rw [treeText, treeText] at same
    obtain ⟨values, rests⟩ := (scalarText_token numbers).reads delimits delimits' same
    exact ⟨congrArg Tree.scalar values, rests⟩
  | .scalar value, .array items =>
    obtain ⟨char, tail, shape, -, -, apart, -⟩ := scalarText_plain numbers value
    rw [treeText, treeText, shape] at same
    exact absurd (List.cons_eq_cons.mp same).1 apart
  | .scalar value, .object fields =>
    obtain ⟨char, tail, shape, -, -, -, apart⟩ := scalarText_plain numbers value
    rw [treeText, treeText, shape] at same
    exact absurd (List.cons_eq_cons.mp same).1 apart
  | .array items, .scalar value =>
    obtain ⟨char, tail, shape, -, -, apart, -⟩ := scalarText_plain numbers value
    rw [treeText, treeText, shape] at same
    exact absurd (List.cons_eq_cons.mp same).1.symm apart
  | .object fields, .scalar value =>
    obtain ⟨char, tail, shape, -, -, -, apart⟩ := scalarText_plain numbers value
    rw [treeText, treeText, shape] at same
    exact absurd (List.cons_eq_cons.mp same).1.symm apart
  | .array items, .object fields =>
    rw [treeText, treeText] at same
    exact absurd (List.cons_eq_cons.mp same).1 (by decide)
  | .object fields, .array items =>
    rw [treeText, treeText] at same
    exact absurd (List.cons_eq_cons.mp same).1 (by decide)
  | .array items, .array others =>
    rw [treeText, treeText, itemTexts_eq, itemTexts_eq] at same
    simp only [List.cons_append, List.append_assoc, List.cons.injEq, true_and,
      List.nil_append] at same
    obtain ⟨lists, rests⟩ := intercalate_reads (.inl rfl) (treeText_opens numbers)
      (fun item member other after rest delimits delimits' same =>
        treeText_reads item other after rest delimits delimits' same) same
    exact ⟨congrArg Tree.array lists, rests⟩
  | .object fields, .object others =>
    rw [treeText, treeText, entryTexts_eq, entryTexts_eq] at same
    simp only [List.cons_append, List.append_assoc, List.cons.injEq, true_and,
      List.nil_append] at same
    have opens : ∀ field, ∃ char rest, entryText numbers field = char :: rest ∧ char ≠ ']' ∧
        char ≠ '}' := fun field => ⟨'"', _, rfl, by decide, by decide⟩
    obtain ⟨lists, rests⟩ := intercalate_reads (.inr rfl) opens
      (fun field member other after rest delimits delimits' same => by
        unfold entryText at same
        rw [List.append_assoc, List.append_assoc] at same
        obtain ⟨names, values⟩ := quote_injective same
        obtain ⟨trees, rests⟩ := treeText_reads field.2 other.2 after rest delimits delimits'
          (List.cons_eq_cons.mp values).2
        exact ⟨Prod.ext (String.toList_injective names) trees, rests⟩) same
    exact ⟨congrArg Tree.object lists, rests⟩
termination_by left
decreasing_by
  · have small := List.sizeOf_lt_of_mem member
    simp only [Tree.array.sizeOf_spec]
    omega
  · have small := List.sizeOf_lt_of_mem member
    have inside : sizeOf field.2 < sizeOf field := by
      rw [Prod.mk.sizeOf_spec]
      omega
    simp only [Tree.object.sizeOf_spec]
    omega

theorem treeText_injective : Function.Injective (treeText numbers) := by
  intro left right same
  have empty : Delimits [] := by
    intro char member
    contradiction
  exact (treeText_reads left right [] [] empty empty (by rw [same])).1

end Json

/-! ## The text of a value -/

namespace Value

open Json

mutual

/-- What `JSON.stringify` writes of a value, if anything. -/
def tree : Value → Option Tree
  | .undefined => none
  | .null => some (.scalar .null)
  | .boolean value => some (.scalar (.boolean value))
  | .number (.finite value) => some (.scalar (.number value))
  | .number _ => some (.scalar .null)
  | .text value => some (.scalar (.text value))
  | .array items => some (.array (itemTrees items))
  | .object fields => some (.object (fieldTrees fields))

def itemTrees : List Value → List Tree
  | [] => []
  | item :: items => (tree item).getD (.scalar .null) :: itemTrees items

def fieldTrees : List (String × Value) → List (String × Tree)
  | [] => []
  | (name, value) :: fields =>
    match tree value with
    | some tree => (name, tree) :: fieldTrees fields
    | none => fieldTrees fields

end

def jsonText (numbers : NumberText) (value : Value) : Option (List Char) :=
  value.tree.map (treeText numbers)

theorem tree_of_jsonText {numbers : NumberText} {value other : Value}
    (same : value.jsonText numbers = other.jsonText numbers) : value.tree = other.tree :=
  Option.map_injective treeText_injective same

theorem itemTrees_eq (items : List Value) :
    itemTrees items = items.map fun item => item.tree.getD (.scalar .null) := by
  induction items with
  | nil => rfl
  | cons item items ih => rw [itemTrees, ih, List.map_cons]

theorem find_fieldTrees {fields : List (String × Value)} (distinct : (fields.map Prod.fst).Nodup)
    (name : String) : ((fieldTrees fields).find? fun entry => entry.1 = name).map Prod.snd =
      ((Value.object fields).field name).tree := by
  induction fields with
  | nil => rfl
  | cons first rest ih =>
    obtain ⟨key, value⟩ := first
    rw [List.map_cons, List.nodup_cons] at distinct
    have behind := ih distinct.2
    by_cases here : key = name
    · subst here
      have absent : ((fieldTrees rest).find? fun entry => entry.1 = key).map Prod.snd = none := by
        have none : rest.find? (fun entry => entry.1 = key) = none := by
          rw [List.find?_eq_none]
          intro entry member same
          rw [decide_eq_true_eq] at same
          exact distinct.1 (List.mem_map.mpr ⟨entry, member, same⟩)
        rw [behind, field, none]
        rfl
      have own : (Value.object ((key, value) :: rest)).field key = value := by simp [field]
      rw [own, fieldTrees]
      cases written : value.tree with
      | none => exact absent
      | some tree => simp
    · have same : (Value.object ((key, value) :: rest)).field name = (Value.object rest).field name := by
        simp [field, here]
      rw [same, ← behind, fieldTrees]
      cases value.tree with
      | none => rfl
      | some tree => simp [here]

theorem field_tree_of_tree {fields others : List (String × Value)}
    (distinct : (fields.map Prod.fst).Nodup) (distinct' : (others.map Prod.fst).Nodup)
    (same : (Value.object fields).tree = (Value.object others).tree) (name : String) :
    ((Value.object fields).field name).tree = ((Value.object others).field name).tree := by
  have entries : fieldTrees fields = fieldTrees others := by simpa [tree] using same
  rw [← find_fieldTrees distinct, ← find_fieldTrees distinct', entries]

inductive Plain : Value → Prop
  | undefined : Plain .undefined
  | boolean (value : Bool) : Plain (.boolean value)
  | number (value : Rat) : Plain (.number (.finite value))
  | text (value : String) : Plain (.text value)
  | texts (values : List String) : Plain (.array (values.map .text))

theorem eq_text_of_tree {value : Value} {content : String}
    (same : value.tree = some (.scalar (.text content))) : value = .text content := by
  cases value with
  | text other =>
    simp only [tree, Option.some.injEq, Tree.scalar.injEq, Scalar.text.injEq] at same
    rw [same]
  | number value => cases value <;> simp [tree] at same
  | _ => simp [tree] at same

theorem Plain.eq {value other : Value} (plain : Plain value) (same : value.tree = other.tree) :
    other = value := by
  cases plain with
  | undefined =>
    cases other with
    | undefined => rfl
    | number held => cases held <;> simp [tree] at same
    | _ => simp [tree] at same
  | boolean flag =>
    cases other with
    | boolean held =>
      simp only [tree, Option.some.injEq, Tree.scalar.injEq, Scalar.boolean.injEq] at same
      rw [same]
    | number held => cases held <;> simp [tree] at same
    | _ => simp [tree] at same
  | number amount =>
    cases other with
    | number held =>
      cases held with
      | finite held =>
        simp only [tree, Option.some.injEq, Tree.scalar.injEq, Scalar.number.injEq] at same
        rw [same]
      | _ => simp [tree] at same
    | _ => simp [tree] at same
  | text content => exact eq_text_of_tree same.symm
  | texts contents =>
    cases other with
    | array items =>
      simp only [tree, Option.some.injEq, Tree.array.injEq, itemTrees_eq, List.map_map] at same
      congr 1
      induction contents generalizing items with
      | nil =>
        rw [List.map_nil, eq_comm, List.map_eq_nil_iff] at same
        rw [same, List.map_nil]
      | cons first rest ih =>
        cases items with
        | nil => simp at same
        | cons item items =>
          rw [List.map_cons, List.map_cons, List.cons_eq_cons] at same
          have held : item = .text first := by
            apply eq_text_of_tree
            have written : (Value.text first).tree.getD (.scalar .null) =
                item.tree.getD (.scalar .null) := same.1
            cases found : item.tree with
            | none => simp [found, tree] at written
            | some tree' =>
              rw [found, Option.getD_some] at written
              rw [← written]
              rfl
          rw [List.map_cons, ih items same.2, held]
    | number held => cases held <;> simp [tree] at same
    | _ => simp [tree] at same

end Value

end NostrWot.Data
