import LiveCanvas.Proofs.Json.Texts

/-!
# Written values read back

A value without numbers is read back from the line it is written on, with tight and with spaced
gaps alike, but with the halves of a character joined in all its texts.  So two such values that are
written the same are the same when read back, which is what a digest of the text needs in order to
stand for the value.
-/

namespace LiveCanvas

mutual

/-- Nothing in the value is a number. -/
def Value.IsTextual : Value → Prop
  | .null => True
  | .bool _ => True
  | .number _ => False
  | .text _ => True
  | .list items => ItemsTextual items
  | .object fields => FieldsTextual fields

/-- Every item is textual. -/
def ItemsTextual : List Value → Prop
  | [] => True
  | v :: rest => v.IsTextual ∧ ItemsTextual rest

/-- Every field has a textual value. -/
def FieldsTextual : List (Text × Value) → Prop
  | [] => True
  | (_, v) :: rest => v.IsTextual ∧ FieldsTextual rest

end

theorem itemsTextual_iff {items : List Value} :
    ItemsTextual items ↔ ∀ v ∈ items, v.IsTextual := by
  induction items with
  | nil => simp [ItemsTextual]
  | cons v rest ih => simp [ItemsTextual, ih]

theorem isTextual_texts (items : List Text) : (Value.texts items).IsTextual := by
  rw [Value.texts, Value.IsTextual, itemsTextual_iff]
  intro v hv
  obtain ⟨s, -, rfl⟩ := List.mem_map.1 hv
  rw [Value.IsTextual]
  trivial

mutual

/-- The value as it is read back: pairs of halves are joined, and of the fields of one name the last
one counts. -/
def Value.reread : Value → Value
  | .null => .null
  | .bool b => .bool b
  | .number n => .number n
  | .text s => .text s.joined
  | .list items => .list (rereadItems items)
  | .object fields => .object (Fields.ofList (rereadFields fields))

/-- The items as they are read back. -/
def rereadItems : List Value → List Value
  | [] => []
  | v :: rest => v.reread :: rereadItems rest

/-- The fields as they are read back. -/
def rereadFields : List (Text × Value) → List (Text × Value)
  | [] => []
  | (name, v) :: rest => (name.joined, v.reread) :: rereadFields rest

end

theorem rereadItems_eq_map (items : List Value) : rereadItems items = items.map Value.reread := by
  induction items with
  | nil => simp [rereadItems]
  | cons v rest ih => simp [rereadItems, ih]

theorem rereadFields_eq_map (fields : List (Text × Value)) :
    rereadFields fields = fields.map fun field => (field.1.joined, field.2.reread) := by
  induction fields with
  | nil => simp [rereadFields]
  | cons field rest ih => simp [rereadFields, ih]

theorem reread_texts (items : List Text) :
    (Value.texts items).reread = .texts (items.map Text.joined) := by
  rw [Value.texts, Value.texts, Value.reread, rereadItems_eq_map, List.map_map, List.map_map]
  simp only [Function.comp_def, Value.reread]

namespace Json

/-! ## Gaps -/

/-- Items and fields are set apart by a comma, names and values by a colon, and then by gaps. -/
structure Layout.IsReadable (layout : Layout) : Prop where
  item : ∃ gap, layout.afterItem.toList = .char ',' :: gap ∧ ∀ c ∈ gap, isGap c = true
  name : ∃ gap, layout.afterName.toList = .char ':' :: gap ∧ ∀ c ∈ gap, isGap c = true

theorem isReadable_tight : tight.IsReadable :=
  ⟨⟨[], by decide, by simp⟩, ⟨[], by decide, by simp⟩⟩

theorem isReadable_spaced : spaced.IsReadable := by
  have hgap : ∀ c ∈ [Rune.char ' '], isGap c = true := by
    intro c hc
    rw [List.mem_singleton.1 hc]
    decide
  exact ⟨⟨[.char ' '], by decide, hgap⟩, ⟨[.char ' '], by decide, hgap⟩⟩

theorem skipGaps_append {gap : List Rune} (h : ∀ c ∈ gap, isGap c = true) (cs : List Rune) :
    skipGaps (gap ++ cs) = skipGaps cs := by
  induction gap with
  | nil => rfl
  | cons c gap ih =>
      have hc : isGap c = true := h c List.mem_cons_self
      have htail := ih fun d hd => h d (List.mem_cons_of_mem c hd)
      rw [List.cons_append]
      simpa [skipGaps, hc] using htail

/-- What a value without numbers may start with. -/
def valueStarts : List Rune := ['n', 't', 'f', '"', '[', '\x7b']

theorem of_mem_valueStarts : ∀ c ∈ valueStarts,
    isGap c = false ∧ c ≠ ']' ∧ c ≠ '\x7d' ∧ c ≠ '<' ∧ c ≠ '/' := by
  intro c hc
  simp only [valueStarts, List.mem_cons, List.not_mem_nil, or_false] at hc
  obtain rfl | rfl | rfl | rfl | rfl | rfl := hc <;> decide

/-- The text starts as a value without numbers does. -/
def StartsValue (cs : List Rune) : Prop :=
  ∃ c rest, cs = c :: rest ∧ c ∈ valueStarts

theorem StartsValue.append {cs : List Rune} (h : StartsValue cs) (rest : List Rune) :
    StartsValue (cs ++ rest) := by
  obtain ⟨c, tail, rfl, hc⟩ := h
  exact ⟨c, tail ++ rest, rfl, hc⟩

theorem StartsValue.skipGaps_eq {cs : List Rune} (h : StartsValue cs) : skipGaps cs = cs := by
  obtain ⟨c, rest, rfl, hc⟩ := h
  simp [skipGaps, of_mem_valueStarts c hc]

theorem startsValue_quoted (s : Text) : StartsValue (quoted s).toList := by
  rw [toList_quoted]
  exact ⟨_, _, rfl, by decide⟩

theorem startsValue_write (layout : Layout) {v : Value} (h : v.IsTextual) :
    StartsValue (write layout v).toList := by
  cases v with
  | null => exact ⟨'n', ['u', 'l', 'l'], by rw [write]; rfl, by decide⟩
  | bool b =>
      cases b with
      | true => exact ⟨'t', ['r', 'u', 'e'], by rw [write]; rfl, by decide⟩
      | false => exact ⟨'f', ['a', 'l', 's', 'e'], by rw [write]; rfl, by decide⟩
  | number n => rw [Value.IsTextual] at h; exact h.elim
  | text s => rw [write]; exact startsValue_quoted s
  | list items =>
      rw [write, Text.toList_append, Text.toList_append]
      exact ⟨'[', _, rfl, by decide⟩
  | object fields =>
      rw [write, Text.toList_append, Text.toList_append]
      exact ⟨'\x7b', _, rfl, by decide⟩

/-! ## Spellings -/

/-- Another way to spell a document.  It may put escapes for slashes and for `<`, so it goes through
the document part by part between all other characters, and quoted texts are read as before. -/
structure IsSpelling (spell : List Rune → List Rune) : Prop where
  nil : spell [] = []
  split : ∀ (cs : List Rune) (c : Rune) (rest : List Rune), c ≠ '<' → c ≠ '/' →
    spell (cs ++ c :: rest) = spell cs ++ c :: spell rest
  read : ∀ (s : Text) (rest : List Rune),
    readText [] (spell (s.toList.flatMap escapedChar) ++ .char '"' :: rest)
      ((spell (s.toList.flatMap escapedChar) ++ .char '"' :: rest).length + 1) =
        .ok (s.joined, rest)

/-- The document as it is written. -/
theorem isSpelling_id : IsSpelling id where
  nil := rfl
  split := fun _ _ _ _ _ => rfl
  read := readText_quoted

section Spelling

variable {spell : List Rune → List Rune}

theorem IsSpelling.cons (hs : IsSpelling spell) {c : Rune} (hlt : c ≠ '<') (hslash : c ≠ '/')
    (rest : List Rune) : spell (c :: rest) = c :: spell rest := by
  simpa [hs.nil] using hs.split [] c rest hlt hslash

theorem IsSpelling.gap (hs : IsSpelling spell) {gap : List Rune} (h : ∀ c ∈ gap, isGap c = true)
    (rest : List Rune) : spell (gap ++ rest) = gap ++ spell rest := by
  induction gap with
  | nil => rfl
  | cons c gap ih =>
      have hc : isGap c = true := h c List.mem_cons_self
      have hne : c ≠ '<' ∧ c ≠ '/' := by
        constructor <;> rintro rfl <;> exact absurd hc (by decide)
      rw [List.cons_append, hs.cons hne.1 hne.2, ih fun d hd => h d (List.mem_cons_of_mem c hd)]
      rfl

theorem StartsValue.spelled {cs : List Rune} (h : StartsValue cs) (hs : IsSpelling spell) :
    StartsValue (spell cs) := by
  obtain ⟨c, rest, rfl, hc⟩ := h
  obtain ⟨-, -, -, hlt, hslash⟩ := of_mem_valueStarts c hc
  exact ⟨c, spell rest, hs.cons hlt hslash rest, hc⟩

theorem IsSpelling.toList_quoted (hs : IsSpelling spell) (s : Text) :
    spell (quoted s).toList =
      .char '"' :: (spell (s.toList.flatMap escapedChar) ++ [.char '"']) := by
  rw [Json.toList_quoted, hs.cons (by decide) (by decide), hs.split _ _ _ (by decide) (by decide),
    hs.nil]

end Spelling

/-! ## Steps of the reader -/

theorem readValue_quoted {spell : List Rune → List Rune} (hs : IsSpelling spell) (s : Text)
    (rest : List Rune) (fuel : Nat) :
    readValue (spell (quoted s).toList ++ rest) (fuel + 1) = .ok (.text s.joined, rest) := by
  rw [hs.toList_quoted, List.cons_append, List.append_assoc, List.singleton_append]
  simp only [readValue]
  rw [hs.read]

theorem readValue_bracket {cs : List Rune} (h : StartsValue cs) (fuel : Nat) :
    readValue (.char '[' :: cs) (fuel + 1) = readItems [] cs fuel := by
  simp only [readValue]
  rw [h.skipGaps_eq]
  obtain ⟨c, rest, rfl, hc⟩ := h
  split
  · next heq => exact absurd (List.cons.inj heq).1 (of_mem_valueStarts c hc).2.1
  · rfl

theorem readValue_brace {cs : List Rune} (h : StartsValue cs) (fuel : Nat) :
    readValue (.char '\x7b' :: cs) (fuel + 1) = readFields [] cs fuel := by
  simp only [readValue]
  rw [h.skipGaps_eq]
  obtain ⟨c, rest, rfl, hc⟩ := h
  split
  · next heq => exact absurd (List.cons.inj heq).1 (of_mem_valueStarts c hc).2.2.1
  · rfl

theorem readItems_last {cs rest : List Rune} {v : Value} {fuel : Nat}
    (h : readValue cs fuel = .ok (v, .char ']' :: rest)) (read : List Value) :
    readItems read cs (fuel + 1) = .ok (.list (read.reverse ++ [v]), rest) := by
  rw [readItems, h]
  simp [skipGaps, isGap]

theorem readItems_more {cs gap rest : List Rune} {v : Value} {fuel : Nat}
    (h : readValue cs fuel = .ok (v, .char ',' :: (gap ++ rest))) (hgap : ∀ c ∈ gap, isGap c = true)
    (hrest : StartsValue rest) (read : List Value) :
    readItems read cs (fuel + 1) = readItems (v :: read) rest fuel := by
  have hcomma : skipGaps (.char ',' :: (gap ++ rest)) = .char ',' :: (gap ++ rest) := by
    simp [skipGaps, isGap]
  rw [readItems, h]
  simp only [hcomma]
  rw [skipGaps_append hgap, hrest.skipGaps_eq]

section Fields

variable {spell : List Rune → List Rune}

/-- The reader gets through the name of a field and to its value. -/
theorem readFields_name (hs : IsSpelling spell) (name : Text) {gap cs : List Rune}
    (hgap : ∀ c ∈ gap, isGap c = true) (hcs : StartsValue cs) (read : List (Text × Value))
    (fuel : Nat) :
    readFields read (spell (quoted name).toList ++ .char ':' :: (gap ++ cs)) (fuel + 1) =
      match readValue cs fuel with
      | .error e => .error e
      | .ok (v, rest) =>
        match skipGaps rest with
        | .char ',' :: rest => readFields ((name.joined, v) :: read) (skipGaps rest) fuel
        | .char '\x7d' :: rest =>
            .ok (.object (Fields.ofList ((name.joined, v) :: read).reverse), rest)
        | _ => .error .malformed := by
  have hcolon : skipGaps (.char ':' :: (gap ++ cs)) = .char ':' :: (gap ++ cs) := by
    simp [skipGaps, isGap]
  rw [hs.toList_quoted, List.cons_append, List.append_assoc, List.singleton_append]
  rw [readFields]
  rw [hs.read]
  simp only [hcolon]
  rewrite [skipGaps_append hgap, hcs.skipGaps_eq]
  rfl

theorem readFields_last (hs : IsSpelling spell) (name : Text) {gap cs rest : List Rune} {v : Value}
    {fuel : Nat} (hgap : ∀ c ∈ gap, isGap c = true) (hcs : StartsValue cs)
    (h : readValue cs fuel = .ok (v, .char '\x7d' :: rest)) (read : List (Text × Value)) :
    readFields read (spell (quoted name).toList ++ .char ':' :: (gap ++ cs)) (fuel + 1) =
      .ok (.object (Fields.ofList (read.reverse ++ [(name.joined, v)])), rest) := by
  rw [readFields_name hs name hgap hcs, h]
  simp [skipGaps, isGap]

theorem readFields_more (hs : IsSpelling spell) (name : Text) {gap cs gap' rest : List Rune}
    {v : Value} {fuel : Nat} (hgap : ∀ c ∈ gap, isGap c = true) (hcs : StartsValue cs)
    (h : readValue cs fuel = .ok (v, .char ',' :: (gap' ++ rest)))
    (hgap' : ∀ c ∈ gap', isGap c = true) (hrest : StartsValue rest)
    (read : List (Text × Value)) :
    readFields read (spell (quoted name).toList ++ .char ':' :: (gap ++ cs)) (fuel + 1) =
      readFields ((name.joined, v) :: read) rest fuel := by
  have hcomma : skipGaps (.char ',' :: (gap' ++ rest)) = .char ',' :: (gap' ++ rest) := by
    simp [skipGaps, isGap]
  rw [readFields_name hs name hgap hcs, h]
  simp only [hcomma]
  rw [skipGaps_append hgap', hrest.skipGaps_eq]

end Fields

/-! ## Whole values -/

/-- The items of a list as they stand between its brackets. -/
def itemsText (layout : Layout) (items : List Value) : List Rune :=
  (layout.afterItem.intercalate (writeItems layout items)).toList

/-- The fields of an object as they stand between its braces. -/
def fieldsText (layout : Layout) (fields : List (Text × Value)) : List Rune :=
  (layout.afterItem.intercalate (writeFields layout fields)).toList

theorem toList_write_list (layout : Layout) (items : List Value) :
    (write layout (.list items)).toList = .char '[' :: (itemsText layout items ++ [.char ']']) := by
  simp [write, itemsText]

theorem toList_write_object (layout : Layout) (fields : List (Text × Value)) :
    (write layout (.object fields)).toList =
      .char '\x7b' :: (fieldsText layout fields ++ [.char '\x7d']) := by
  simp [write, fieldsText]

theorem itemsText_singleton (layout : Layout) (v : Value) :
    itemsText layout [v] = (write layout v).toList := by
  simp [itemsText, writeItems]

theorem itemsText_cons (layout : Layout) (v next : Value) (rest : List Value) :
    itemsText layout (v :: next :: rest) =
      (write layout v).toList ++ (layout.afterItem.toList ++ itemsText layout (next :: rest)) := by
  simp only [itemsText, writeItems]
  rw [Text.intercalate_cons_cons, Text.toList_append, Text.toList_append, List.append_assoc]

theorem fieldsText_singleton (layout : Layout) (name : Text) (v : Value) :
    fieldsText layout [(name, v)] =
      (quoted name).toList ++ (layout.afterName.toList ++ (write layout v).toList) := by
  simp [fieldsText, writeFields]

theorem fieldsText_cons (layout : Layout) (name : Text) (v : Value) (next : Text × Value)
    (rest : List (Text × Value)) :
    fieldsText layout ((name, v) :: next :: rest) =
      (quoted name).toList ++ (layout.afterName.toList ++ ((write layout v).toList ++
        (layout.afterItem.toList ++ fieldsText layout (next :: rest)))) := by
  simp only [fieldsText, writeFields]
  rw [Text.intercalate_cons_cons]
  simp [Text.toList_append]

theorem startsValue_itemsText (layout : Layout) {v : Value} {rest : List Value}
    (h : v.IsTextual) : StartsValue (itemsText layout (v :: rest)) := by
  cases rest with
  | nil => rw [itemsText_singleton]; exact startsValue_write layout h
  | cons next rest => rw [itemsText_cons]; exact (startsValue_write layout h).append _

theorem startsValue_fieldsText (layout : Layout) (field : Text × Value)
    (rest : List (Text × Value)) : StartsValue (fieldsText layout (field :: rest)) := by
  obtain ⟨name, v⟩ := field
  cases rest with
  | nil => rw [fieldsText_singleton]; exact (startsValue_quoted name).append _
  | cons next rest => rw [fieldsText_cons]; exact (startsValue_quoted name).append _

section Spelling

variable {spell : List Rune → List Rune} (layout : Layout)

theorem IsSpelling.write_list (hs : IsSpelling spell) (items : List Value) :
    spell (write layout (.list items)).toList =
      .char '[' :: (spell (itemsText layout items) ++ [.char ']']) := by
  rw [toList_write_list, hs.cons (by decide) (by decide), hs.split _ _ _ (by decide) (by decide),
    hs.nil]

theorem IsSpelling.write_object (hs : IsSpelling spell) (fields : List (Text × Value)) :
    spell (write layout (.object fields)).toList =
      .char '\x7b' :: (spell (fieldsText layout fields) ++ [.char '\x7d']) := by
  rw [toList_write_object, hs.cons (by decide) (by decide), hs.split _ _ _ (by decide) (by decide),
    hs.nil]

variable {layout}

theorem IsSpelling.items_cons (hs : IsSpelling spell) {gap : List Rune}
    (hgap : layout.afterItem.toList = .char ',' :: gap) (hisGap : ∀ c ∈ gap, isGap c = true)
    (v next : Value) (rest : List Value) :
    spell (itemsText layout (v :: next :: rest)) = spell (write layout v).toList ++
      .char ',' :: (gap ++ spell (itemsText layout (next :: rest))) := by
  rw [itemsText_cons, hgap, List.cons_append, hs.split _ _ _ (by decide) (by decide), hs.gap hisGap]

theorem IsSpelling.fields_singleton (hs : IsSpelling spell) {gap : List Rune}
    (hgap : layout.afterName.toList = .char ':' :: gap) (hisGap : ∀ c ∈ gap, isGap c = true)
    (name : Text) (v : Value) :
    spell (fieldsText layout [(name, v)]) =
      spell (quoted name).toList ++ .char ':' :: (gap ++ spell (write layout v).toList) := by
  rw [fieldsText_singleton, hgap, List.cons_append, hs.split _ _ _ (by decide) (by decide),
    hs.gap hisGap]

theorem IsSpelling.fields_cons (hs : IsSpelling spell) {gap gap' : List Rune}
    (hgap : layout.afterName.toList = .char ':' :: gap) (hisGap : ∀ c ∈ gap, isGap c = true)
    (hgap' : layout.afterItem.toList = .char ',' :: gap') (hisGap' : ∀ c ∈ gap', isGap c = true)
    (name : Text) (v : Value) (next : Text × Value) (rest : List (Text × Value)) :
    spell (fieldsText layout ((name, v) :: next :: rest)) =
      spell (quoted name).toList ++ .char ':' :: (gap ++ (spell (write layout v).toList ++
        .char ',' :: (gap' ++ spell (fieldsText layout (next :: rest))))) := by
  rw [fieldsText_cons, hgap, hgap', List.cons_append, List.cons_append,
    hs.split _ _ _ (by decide) (by decide), hs.gap hisGap, hs.split _ _ _ (by decide) (by decide),
    hs.gap hisGap']

end Spelling

/-- With this much fuel, whatever is at most as long as the fuel is read back.  Each level of a
value takes a bracket and each further item a comma, so no fuel is ever missing. -/
structure ReadsBack (layout : Layout) (spell : List Rune → List Rune) (fuel : Nat) : Prop where
  value : ∀ (v : Value) (rest : List Rune), v.IsTextual →
    (spell (write layout v).toList).length ≤ fuel →
      readValue (spell (write layout v).toList ++ rest) fuel = .ok (v.reread, rest)
  items : ∀ (v : Value) (items read : List Value) (rest : List Rune), ItemsTextual (v :: items) →
    (spell (itemsText layout (v :: items))).length < fuel →
      readItems read (spell (itemsText layout (v :: items)) ++ .char ']' :: rest) fuel =
        .ok (.list (read.reverse ++ rereadItems (v :: items)), rest)
  fields : ∀ (field : Text × Value) (fields read : List (Text × Value)) (rest : List Rune),
    FieldsTextual (field :: fields) →
    (spell (fieldsText layout (field :: fields))).length < fuel →
      readFields read (spell (fieldsText layout (field :: fields)) ++ .char '\x7d' :: rest) fuel =
        .ok (.object (Fields.ofList (read.reverse ++ rereadFields (field :: fields))), rest)

section Step

variable {layout : Layout} {spell : List Rune → List Rune} {fuel : Nat}

theorem ReadsBack.value_succ (hs : IsSpelling spell) (ih : ReadsBack layout spell fuel) (v : Value)
    (rest : List Rune) (h : v.IsTextual)
    (hfuel : (spell (write layout v).toList).length ≤ fuel + 1) :
    readValue (spell (write layout v).toList ++ rest) (fuel + 1) = .ok (v.reread, rest) := by
  cases v with
  | null => rw [write, Value.reread]; simp [hs.cons, hs.nil, readValue, readWord]
  | bool b => cases b <;> rw [write, Value.reread] <;> simp [hs.cons, hs.nil, readValue, readWord]
  | number n => rw [Value.IsTextual] at h; exact h.elim
  | text s => rw [write, Value.reread]; exact readValue_quoted hs s rest fuel
  | list items =>
      cases items with
      | nil =>
          rw [write, Value.reread]
          simp [hs.cons, hs.nil, writeItems, rereadItems, readValue, skipGaps, isGap]
      | cons v items =>
          rw [Value.IsTextual] at h
          rw [hs.write_list, List.length_cons, List.length_append, List.length_singleton] at hfuel
          rw [hs.write_list, List.cons_append, List.append_assoc, List.singleton_append]
          rw [readValue_bracket (((startsValue_itemsText layout h.1).spelled hs).append _)]
          rw [Value.reread]
          exact ih.items v items [] rest h (by omega)
  | object fields =>
      cases fields with
      | nil =>
          rw [write, Value.reread]
          simp [hs.cons, hs.nil, writeFields, rereadFields, readValue, skipGaps, isGap,
            Fields.ofList]
      | cons field fields =>
          rw [Value.IsTextual] at h
          rw [hs.write_object, List.length_cons, List.length_append, List.length_singleton] at hfuel
          rw [hs.write_object, List.cons_append, List.append_assoc, List.singleton_append]
          rw [readValue_brace (((startsValue_fieldsText layout field fields).spelled hs).append _)]
          rw [Value.reread]
          exact ih.fields field fields [] rest h (by omega)

theorem ReadsBack.items_succ (hl : layout.IsReadable) (hs : IsSpelling spell)
    (ih : ReadsBack layout spell fuel) (v : Value) (items read : List Value) (rest : List Rune)
    (h : ItemsTextual (v :: items))
    (hfuel : (spell (itemsText layout (v :: items))).length < fuel + 1) :
    readItems read (spell (itemsText layout (v :: items)) ++ .char ']' :: rest) (fuel + 1) =
      .ok (.list (read.reverse ++ rereadItems (v :: items)), rest) := by
  rw [ItemsTextual] at h
  cases items with
  | nil =>
      rw [itemsText_singleton] at hfuel ⊢
      rw [rereadItems, rereadItems]
      exact readItems_last (ih.value v (.char ']' :: rest) h.1 (by omega)) read
  | cons next items =>
      obtain ⟨gap, hgap, hisGap⟩ := hl.item
      rw [hs.items_cons hgap hisGap] at hfuel ⊢
      simp only [List.length_append, List.length_cons] at hfuel
      have hfirst := ih.value v
        (.char ',' :: (gap ++ (spell (itemsText layout (next :: items)) ++ .char ']' :: rest))) h.1
        (by omega)
      have hstart : StartsValue (spell (itemsText layout (next :: items)) ++ .char ']' :: rest) :=
        ((startsValue_itemsText layout h.2.1).spelled hs).append _
      simp only [List.append_assoc, List.cons_append]
      rw [readItems_more hfirst hisGap hstart read]
      rw [ih.items next items (v.reread :: read) rest h.2 (by omega)]
      rw [List.reverse_cons, List.append_assoc, List.singleton_append, rereadItems.eq_2 v]

theorem ReadsBack.fields_succ (hl : layout.IsReadable) (hs : IsSpelling spell)
    (ih : ReadsBack layout spell fuel) (field : Text × Value)
    (fields read : List (Text × Value)) (rest : List Rune) (h : FieldsTextual (field :: fields))
    (hfuel : (spell (fieldsText layout (field :: fields))).length < fuel + 1) :
    readFields read (spell (fieldsText layout (field :: fields)) ++ .char '\x7d' :: rest)
        (fuel + 1) =
      .ok (.object (Fields.ofList (read.reverse ++ rereadFields (field :: fields))), rest) := by
  obtain ⟨name, v⟩ := field
  obtain ⟨gap, hgap, hisGap⟩ := hl.name
  rw [FieldsTextual] at h
  cases fields with
  | nil =>
      rw [hs.fields_singleton hgap hisGap] at hfuel ⊢
      simp only [List.length_append, List.length_cons] at hfuel
      have hvalue := ih.value v (.char '\x7d' :: rest) h.1 (by omega)
      have hstart := ((startsValue_write layout h.1).spelled hs).append (.char '\x7d' :: rest)
      simp only [List.append_assoc, List.cons_append]
      rw [rereadFields, rereadFields]
      exact readFields_last hs name hisGap hstart hvalue read
  | cons next fields =>
      obtain ⟨gap', hgap', hisGap'⟩ := hl.item
      rw [hs.fields_cons hgap hisGap hgap' hisGap'] at hfuel ⊢
      simp only [List.length_append, List.length_cons] at hfuel
      have hvalue := ih.value v (.char ',' ::
        (gap' ++ (spell (fieldsText layout (next :: fields)) ++ .char '\x7d' :: rest)))
        h.1 (by omega)
      have hstart := ((startsValue_write layout h.1).spelled hs).append (.char ',' ::
        (gap' ++ (spell (fieldsText layout (next :: fields)) ++ .char '\x7d' :: rest)))
      have hnext :
          StartsValue (spell (fieldsText layout (next :: fields)) ++ .char '\x7d' :: rest) :=
        ((startsValue_fieldsText layout next fields).spelled hs).append _
      simp only [List.append_assoc, List.cons_append]
      rw [readFields_more hs name hisGap hstart hvalue hisGap' hnext read]
      rw [ih.fields next fields ((name.joined, v.reread) :: read) rest h.2 (by omega)]
      rw [List.reverse_cons, List.append_assoc, List.singleton_append, rereadFields.eq_2 name v]

end Step

theorem readsBack {layout : Layout} (hl : layout.IsReadable) {spell : List Rune → List Rune}
    (hs : IsSpelling spell) (fuel : Nat) : ReadsBack layout spell fuel := by
  induction fuel with
  | zero =>
      refine ⟨?_, fun _ _ _ _ _ hfuel => absurd hfuel (Nat.not_lt_zero _),
        fun _ _ _ _ _ hfuel => absurd hfuel (Nat.not_lt_zero _)⟩
      intro v rest h hfuel
      obtain ⟨c, tail, hstart, -⟩ := (startsValue_write layout h).spelled hs
      rw [hstart] at hfuel
      exact absurd hfuel (Nat.not_succ_le_zero _)
  | succ fuel ih => exact ⟨ih.value_succ hs, ih.items_succ hl hs, ih.fields_succ hl hs⟩

/-- A textual value is read back from the line it is written on, in any spelling. -/
theorem read_spell_write {layout : Layout} (hl : layout.IsReadable) {spell : List Rune → List Rune}
    (hs : IsSpelling spell) {v : Value} (h : v.IsTextual) :
    read (Text.ofList (spell (write layout v).toList)) = .ok v.reread := by
  have hvalue := (readsBack hl hs (2 * (spell (write layout v).toList).length + 2)).value v [] h
    (by omega)
  rw [List.append_nil] at hvalue
  simp only [read]
  rw [Text.toList_ofList, ((startsValue_write layout h).spelled hs).skipGaps_eq, hvalue]
  rfl

/-- A textual value is read back from the line it is written on. -/
theorem read_write {layout : Layout} (hl : layout.IsReadable) {v : Value} (h : v.IsTextual) :
    read (write layout v) = .ok v.reread := by
  have hread := read_spell_write hl isSpelling_id h
  rwa [id, Text.ofList_toList] at hread

theorem writeItems_eq_map (layout : Layout) (items : List Value) :
    writeItems layout items = items.map (write layout) := by
  induction items with
  | nil => simp [writeItems]
  | cons v rest ih => simp [writeItems, ih]

/-- Texts are written as they are written with their pairs joined. -/
theorem write_reread_texts (layout : Layout) (items : List Text) :
    write layout (Value.texts items).reread = write layout (.texts items) := by
  have hquoted : ∀ s : Text, quoted s.joined = quoted s := fun s => by
    rw [quoted, Text.joined, Text.toList_ofList, flatMap_escapedChar_joinHalves, quoted]
  rw [reread_texts, Value.texts, Value.texts]
  simp only [write, writeItems_eq_map, List.map_map, Function.comp_def, hquoted]

/-- Textual values that are written the same are read back as the same. -/
theorem reread_eq_of_write_eq {layout : Layout} (hl : layout.IsReadable) {v w : Value}
    (hv : v.IsTextual) (hw : w.IsTextual) (h : write layout v = write layout w) :
    v.reread = w.reread := by
  have hread := read_write hl hv
  rw [h, read_write hl hw] at hread
  exact (Except.ok.inj hread).symm

end Json
end LiveCanvas
