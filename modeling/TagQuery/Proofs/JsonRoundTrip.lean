import TagQuery.Proofs.JsonReads

namespace TagQuery

namespace Json

open Text

theorem induction {motive : Json → Prop} (null : motive .null) (bool : ∀ value, motive (.bool value))
    (integer : ∀ value, motive (.integer value)) (float : ∀ value, motive (.float value))
    (string : ∀ text, motive (.string text))
    (array : ∀ items, (∀ item ∈ items, motive item) → motive (.array items))
    (object : ∀ fields, (∀ field ∈ fields, motive field.2) → motive (.object fields)) (json : Json) : motive json := by
  refine @Json.rec motive (fun items => ∀ item ∈ items, motive item) (fun fields => ∀ field ∈ fields, motive field.2)
    (fun field => motive field.2) null bool integer float string array object ?_ ?_ ?_ ?_ ?_ json
  · nofun
  · intro item items first others
    exact List.forall_mem_cons.mpr ⟨first, others⟩
  · nofun
  · intro field fields first others
    exact List.forall_mem_cons.mpr ⟨first, others⟩
  · exact fun _ _ holds => holds

mutual

/-- What a value comes back as when it is written and read by a reader that lets so many objects and arrays stand
    inside each other. Only its numbers can change. -/
def reread? : Nat → Json → Option Json
  | _, .null => some .null
  | _, .bool value => some (.bool value)
  | _, .integer value => numberOf? (toString value).toList
  | _, .float value => if Number.isFinite value then numberOf? (floatText value).toList else some .null
  | _, .string text => some (.string text)
  | 0, .array _ | 0, .object _ => none
  | depth + 1, .array items => (rereadItems? depth items).map .array
  | depth + 1, .object fields => (rereadFields? depth fields).map .object

def rereadItems? : Nat → List Json → Option (List Json)
  | _, [] => some []
  | depth, item :: items => do return (← reread? depth item) :: (← rereadItems? depth items)

def rereadFields? : Nat → List (String × Json) → Option (List (String × Json))
  | _, [] => some []
  | depth, (name, value) :: fields => do return (name, ← reread? depth value) :: (← rereadFields? depth fields)

end

theorem reread?_string (depth : Nat) (text : String) : reread? depth (.string text) = some (.string text) := by
  rw [reread?]

theorem reread?_object (depth : Nat) (fields : List (String × Json)) :
    reread? (depth + 1) (.object fields) = (rereadFields? depth fields).map .object := by
  rw [reread?]

theorem rereadItems?_eq (depth : Nat) (items : List Json) : rereadItems? depth items = items.mapM (reread? depth) := by
  induction items with
  | nil => rfl
  | cons item items ih => rw [rereadItems?, List.mapM_cons, ih]

theorem rereadFields?_eq (depth : Nat) (fields : List (String × Json)) :
    rereadFields? depth fields = fields.mapM fun field => (reread? depth field.2).map (field.1, ·) := by
  induction fields with
  | nil => rfl
  | cons field fields ih =>
    rw [rereadFields?, List.mapM_cons, ih]
    cases reread? depth field.2 <;> rfl

/-- A reader takes a text for a value, or refuses it, whatever comes after it that does not go on with a number. -/
def Reads {α : Type} (item : (text : List Char) → Option (Reading α text)) (text : List Char)
    (value : Option α) : Prop :=
  ∀ rest, startsWith continuesNumber rest = false → found (item (text ++ rest)) = value.map (·, rest)

def listed {β : Type} (written : β → List Char) (first : β) (others : List β) : List Char :=
  written first ++ others.flatMap fun each => ',' :: written each

theorem listed_cons {β : Type} (written : β → List Char) (first second : β) (others : List β) (rest : List Char) :
    listed written first (second :: others) ++ rest =
      written first ++ ',' :: (listed written second others ++ rest) := by
  simp [listed]

section Sequences

variable {α β : Type} {item : (text : List Char) → Option (Reading α text)} {closing : Char}
variable {written : β → List Char} {value : β → Option α} {first : β} {others : List β}

theorem stops_cons {c : Char} (other : continuesNumber c = false) (rest : List Char) :
    startsWith continuesNumber (c :: rest) = false := other

theorem stops_blanks {blanks : List Char} (all : blanks.all isBlank = true) {rest : List Char}
    (stops : startsWith continuesNumber rest = false) : startsWith continuesNumber (blanks ++ rest) = false := by
  cases blanks with
  | nil => exact stops
  | cons c blanks =>
    rw [List.all_cons, Bool.and_eq_true] at all
    have blank := all.1
    simp only [isBlank, Bool.or_eq_true, decide_eq_true_eq] at blank
    rcases blank with ((rfl | rfl) | rfl) | rfl <;> rfl

theorem found_items_written (comma : closing ≠ ',') (solid : isBlank closing = false)
    (stops : continuesNumber closing = false)
    (reads : ∀ each ∈ first :: others, Reads item (written each) (value each)) {blanks : List Char}
    (all : blanks.all isBlank = true) (rest : List Char) :
    found (items item closing (listed written first others ++ (blanks ++ closing :: rest))) =
      ((first :: others).mapM value).map (·, rest) := by
  have last : skip (closing :: rest) = closing :: rest := skip_of_startsWith solid
  induction others generalizing first with
  | nil =>
    have one := reads first List.mem_cons_self _ (stops_blanks all (stops_cons stops rest))
    rw [listed, List.flatMap_nil, List.append_nil, found_items, one, List.mapM_cons, List.mapM_nil]
    cases value first with
    | none => rfl
    | some read =>
      simp only [Option.map_some, Option.bind_some, skip_blanks all, last, if_true]
      rfl
  | cons second others ih =>
    have one := reads first List.mem_cons_self (',' :: (listed written second others ++ (blanks ++ closing :: rest))) rfl
    have further := ih fun each member => reads each (List.mem_cons_of_mem _ member)
    have next (text : List Char) : skip (',' :: text) = ',' :: text := rfl
    rw [listed_cons, found_items, one, List.mapM_cons]
    cases value first with
    | none => rfl
    | some read =>
      simp only [Option.map_some, Option.bind_some, next, if_neg comma.symm, if_true, further]
      cases List.mapM value (second :: others) <;> rfl

theorem found_sequence_empty (solid : isBlank closing = false) (rest : List Char) :
    found (sequence item closing (closing :: rest)) = some ([], rest) := by
  have last : skip (closing :: rest) = closing :: rest := skip_of_startsWith solid
  rw [found_sequence, last]
  exact if_pos rfl

theorem found_sequence_written (comma : closing ≠ ',') (solid : isBlank closing = false)
    (stops : continuesNumber closing = false)
    (opens : ∀ text, ∃ c more, skip (written first ++ text) = c :: more ∧ c ≠ closing)
    (reads : ∀ each ∈ first :: others, Reads item (written each) (value each)) {blanks : List Char}
    (all : blanks.all isBlank = true) (rest : List Char) :
    found (sequence item closing (listed written first others ++ (blanks ++ closing :: rest))) =
      ((first :: others).mapM value).map (·, rest) := by
  rw [← found_items_written comma solid stops reads all rest, found_sequence, listed, List.append_assoc]
  obtain ⟨c, more, text, other⟩ := opens (others.flatMap (fun each => ',' :: written each) ++ (blanks ++ closing :: rest))
  rw [text]
  exact if_neg other

end Sequences

theorem isBlank_lineBreak (layout : Layout) : layout.lineBreak.toList.all isBlank = true := by
  cases layout with
  | compact => rfl
  | indented depth =>
    simp only [Layout.lineBreak, String.toList_append, String.toList_ofList, List.all_append]
    simp [isBlank]

def writtenItem (layout : Layout) (item : Json) : List Char := layout.lineBreak.toList ++ (item.write layout).toList

def writtenField (layout : Layout) (field : String × Json) : List Char :=
  layout.lineBreak.toList ++ ((quoted field.1).toList ++ (layout.colon.toList ++ (field.2.write layout).toList))

theorem colon_deeper (layout : Layout) : layout.deeper.colon = layout.colon := by cases layout <;> rfl

theorem toList_writeItems (layout : Layout) (items : List Json) :
    (writeItems layout items).toList = items.flatMap fun item => ',' :: writtenItem layout item := by
  induction items with
  | nil => rfl
  | cons item items ih => simp [writeItems, writtenItem, ih]

theorem toList_writeFields (layout : Layout) (fields : List (String × Json)) :
    (writeFields layout fields).toList = fields.flatMap fun field => ',' :: writtenField layout field := by
  induction fields with
  | nil => rfl
  | cons field fields ih => simp [writeFields, writtenField, ih]

theorem toList_write_array (layout : Layout) (first : Json) (items : List Json) (rest : List Char) :
    ((array (first :: items)).write layout).toList ++ rest =
      '[' :: (listed (writtenItem layout.deeper) first items ++ (layout.lineBreak.toList ++ ']' :: rest)) := by
  simp [write, listed, toList_writeItems, writtenItem]

theorem toList_write_object (layout : Layout) (first : String × Json) (fields : List (String × Json))
    (rest : List Char) :
    ((object (first :: fields)).write layout).toList ++ rest =
      '\x7b' :: (listed (writtenField layout.deeper) first fields ++ (layout.lineBreak.toList ++ '\x7d' :: rest)) := by
  simp [write, listed, toList_writeFields, writtenField, colon_deeper]

theorem toList_quoted (text : String) (rest : List Char) :
    (quoted text).toList ++ rest = '"' :: (text.toList.flatMap escaped ++ '"' :: rest) := by
  simp [quoted]

theorem write_starts (layout : Layout) (json : Json) :
    ∃ c more, (json.write layout).toList = c :: more ∧ isBlank c = false ∧ c ≠ ']' := by
  have number {text : List Char} (form : IsNumeral text) :
      ∃ c more, text = c :: more ∧ isBlank c = false ∧ c ≠ ']' := by
    obtain ⟨c, more, rfl, other⟩ := form.exists_cons
    refine ⟨c, more, rfl, ?_, other ']' rfl⟩
    simp [isBlank, other ' ' rfl, other '\t' rfl, other '\n' rfl, other '\r' rfl]
  cases json with
  | null => exact ⟨'n', _, by rw [write]; rfl, rfl, by decide⟩
  | bool value =>
    cases value with
    | true => exact ⟨'t', _, by rw [write]; rfl, rfl, by decide⟩
    | false => exact ⟨'f', _, by rw [write]; rfl, rfl, by decide⟩
  | integer value =>
    rw [write]
    exact number (isNumeral_integer value)
  | float value =>
    rw [write]
    split
    · rename_i finite
      exact number (isNumeral_floatText finite)
    · exact ⟨'n', _, rfl, rfl, by decide⟩
  | string text =>
    have form := toList_quoted text []
    rw [List.append_nil] at form
    exact ⟨'"', _, by rw [write, form], rfl, by decide⟩
  | array items =>
    cases items with
    | nil => exact ⟨'[', _, by rw [write]; rfl, rfl, by decide⟩
    | cons first items =>
      have form := toList_write_array layout first items []
      rw [List.append_nil] at form
      exact ⟨'[', _, form, rfl, by decide⟩
  | object fields =>
    cases fields with
    | nil => exact ⟨'\x7b', _, by rw [write]; rfl, rfl, by decide⟩
    | cons first fields =>
      have form := toList_write_object layout first fields []
      rw [List.append_nil] at form
      exact ⟨'\x7b', _, form, rfl, by decide⟩

section Reading

variable {layout : Layout} {depth : Nat}

theorem reads_item {item : Json} {value : Option Json}
    (reads : Reads (valueAt depth) (item.write layout).toList value) :
    Reads (valueAt depth) (writtenItem layout item) value := by
  intro rest stops
  rw [writtenItem, List.append_assoc, found_valueAt_skip _ _ _ (isBlank_lineBreak _)]
  exact reads rest stops

theorem reads_field {field : String × Json} {value : Option Json}
    (reads : Reads (valueAt depth) (field.2.write layout).toList value) :
    Reads (fieldAt (valueAt depth)) (writtenField layout field) (value.map (field.1, ·)) := by
  intro rest stops
  -- the quote and the colon stand behind blanks, and the value behind a blank where there are lines
  have quote (text : List Char) : skip (layout.lineBreak.toList ++ ((quoted field.1).toList ++ text)) =
      (quoted field.1).toList ++ text := by
    rw [skip_blanks (isBlank_lineBreak layout), toList_quoted]
    rfl
  have colon (text : List Char) : ∃ blanks : List Char, blanks.all isBlank = true ∧
      skip (layout.colon.toList ++ text) = ':' :: (blanks ++ text) := by
    cases layout with
    | compact => exact ⟨[], rfl, rfl⟩
    | indented line => exact ⟨[' '], rfl, by simp [Layout.colon, skip, isBlank]⟩
  obtain ⟨blanks, all, gap⟩ := colon ((field.2.write layout).toList ++ rest)
  rw [writtenField, List.append_assoc, List.append_assoc, List.append_assoc, found_fieldAt, quote, found_stringAt,
    Option.bind_some]
  simp only [gap, found_valueAt_skip depth blanks _ all, reads rest stops]
  cases value <;> rfl

theorem reads_array {items : List Json}
    (reads : ∀ item ∈ items, ∀ layout depth, Reads (valueAt depth) (item.write layout).toList (reread? depth item)) :
    Reads (valueAt depth) ((array items).write layout).toList (reread? depth (.array items)) := by
  intro rest _
  cases items with
  | nil =>
    have form : ((array []).write layout).toList ++ rest = '[' :: ']' :: rest := by simp [write]
    cases depth with
    | zero =>
      rw [form, found_valueAt_closed_array]
      rfl
    | succ depth =>
      rw [form, found_valueAt_array, found_sequence_empty rfl]
      rfl
  | cons first items =>
    rw [toList_write_array]
    cases depth with
    | zero =>
      rw [found_valueAt_closed_array]
      rfl
    | succ depth =>
      have each : ∀ item ∈ first :: items,
          Reads (valueAt depth) (writtenItem layout.deeper item) (reread? depth item) :=
        fun item member => reads_item (reads item member layout.deeper depth)
      have opens (text : List Char) :
          ∃ c more, skip (writtenItem layout.deeper first ++ text) = c :: more ∧ c ≠ ']' := by
        obtain ⟨c, more, form, solid, other⟩ := write_starts layout.deeper first
        refine ⟨c, more ++ text, ?_, other⟩
        rw [writtenItem, List.append_assoc, skip_blanks (isBlank_lineBreak _), form]
        exact skip_of_startsWith solid
      rw [found_valueAt_array, found_sequence_written (by decide) rfl rfl opens each (isBlank_lineBreak _), reread?,
        rereadItems?_eq]
      cases List.mapM (reread? depth) (first :: items) <;> rfl

theorem reads_object {fields : List (String × Json)}
    (reads : ∀ field ∈ fields, ∀ layout depth,
      Reads (valueAt depth) (field.2.write layout).toList (reread? depth field.2)) :
    Reads (valueAt depth) ((object fields).write layout).toList (reread? depth (.object fields)) := by
  intro rest _
  cases fields with
  | nil =>
    have form : ((object []).write layout).toList ++ rest = '\x7b' :: '\x7d' :: rest := by simp [write]
    cases depth with
    | zero =>
      rw [form, found_valueAt_closed_object]
      rfl
    | succ depth =>
      rw [form, found_valueAt_object, found_sequence_empty rfl]
      rfl
  | cons first fields =>
    rw [toList_write_object]
    cases depth with
    | zero =>
      rw [found_valueAt_closed_object]
      rfl
    | succ depth =>
      have each : ∀ field ∈ first :: fields,
          Reads (fieldAt (valueAt depth)) (writtenField layout.deeper field) ((reread? depth field.2).map (field.1, ·)) :=
        fun field member => reads_field (reads field member layout.deeper depth)
      have opens (text : List Char) :
          ∃ c more, skip (writtenField layout.deeper first ++ text) = c :: more ∧ c ≠ '\x7d' := by
        rw [writtenField, List.append_assoc, List.append_assoc, skip_blanks (isBlank_lineBreak _), toList_quoted]
        exact ⟨'"', _, rfl, by decide⟩
      rw [found_valueAt_object, found_sequence_written (by decide) rfl rfl opens each (isBlank_lineBreak _), reread?,
        rereadFields?_eq]
      cases List.mapM (fun field => (reread? depth field.2).map (field.1, ·)) (first :: fields) <;> rfl

end Reading

theorem reads_write (json : Json) (layout : Layout) (depth : Nat) :
    Reads (valueAt depth) (json.write layout).toList (reread? depth json) := by
  induction json using induction generalizing layout depth with
  | null =>
    intro rest _
    rw [write, reread?, found_valueAt_null]
    rfl
  | bool value =>
    intro rest _
    rw [write, reread?]
    cases value with
    | true => exact found_valueAt_true depth rest
    | false => exact found_valueAt_false depth rest
  | integer value =>
    intro rest stops
    rw [write, reread?]
    exact found_valueAt_number depth rest (isNumeral_integer value) stops
  | float value =>
    intro rest stops
    rw [write, reread?]
    by_cases finite : Number.isFinite value = true
    · rw [if_pos finite, if_pos finite]
      exact found_valueAt_number depth rest (isNumeral_floatText finite) stops
    · rw [if_neg finite, if_neg finite]
      exact found_valueAt_null depth rest
  | string text =>
    intro rest _
    have form := toList_quoted text rest
    rw [write, reread?, form, found_valueAt_string, ← form, found_stringAt]
    rfl
  | array items reads => exact reads_array reads
  | object fields reads => exact reads_object reads

theorem ofText?_write (json : Json) (layout : Layout) : ofText? (json.write layout) = reread? maxDepth json := by
  have read := reads_write json layout maxDepth [] rfl
  rw [List.append_nil] at read
  rw [ofText?]
  cases reading : valueAt maxDepth (json.write layout).toList with
  | none =>
    rw [reading] at read
    exact (Option.map_eq_none_iff.mp read.symm).symm
  | some first =>
    rw [reading] at read
    obtain ⟨value, same, parts⟩ := Option.map_eq_some_iff.mp read.symm
    obtain ⟨rfl, left⟩ := Prod.mk.inj parts
    rw [same]
    show (if (skip first.rest).isEmpty then some first.value else none) = some first.value
    rw [← left]
    rfl

end Json

end TagQuery
