import ScopedStore.Json.Decode
import ScopedStore.Proofs.Text.Utf8

/-! Documents that are read back as they are written, from their text and from its bytes. The reader
is a machine with a stack of open containers: the text of a value, read where a value may stand,
does no more than to put the value there. -/
namespace ScopedStore.Json

mutual

/-- Documents of texts, words and containers, without numbers and without any part that was not
read. -/
def Plain : Json → Prop
  | null | bool _ | string _ => True
  | number _ | garbled | unread => False
  | array items => PlainItems items
  | object fields => PlainFields fields

def PlainItems : List Json → Prop
  | [] => True
  | item :: rest => item.Plain ∧ PlainItems rest

def PlainFields : List (Option String × Json) → Prop
  | [] => True
  | (name, value) :: rest => name.isSome ∧ value.Plain ∧ PlainFields rest

end

namespace Reader

variable {stack : List Frame} {root : Option Json}

theorem foldl_escapeChar (c : Char) (isKey : Bool) (done : List Char) :
    (escapeChar c).foldl step ⟨stack, .text isKey .plain { done := done }, root⟩ =
      ⟨stack, .text isKey .plain { done := c :: done }, root⟩ := by
  by_cases hcontrol : c.toNat < 0x20
  · rw [← Char.ofNat_toNat c]
    generalize c.toNat = n at hcontrol
    interval_cases n <;> rfl
  · by_cases hquote : c = '"'
    · subst hquote
      rfl
    · by_cases hslash : c = '\\'
      · subst hslash
        rfl
      · have hplain : escapeChar c = [c] := by
          unfold escapeChar
          split
          · exact absurd rfl hquote
          · exact absurd rfl hslash
          · exact absurd (by decide) hcontrol
          · exact absurd (by decide) hcontrol
          · exact absurd (by decide) hcontrol
          · exact absurd (by decide) hcontrol
          · exact absurd (by decide) hcontrol
          · exact if_neg hcontrol
        rw [hplain]
        simp [step, inText, hquote, hslash, hcontrol, Quoted.push, Quoted.settle]

theorem foldl_escaped (cs : List Char) (isKey : Bool) (done : List Char) :
    (cs.flatMap escapeChar).foldl step ⟨stack, .text isKey .plain { done := done }, root⟩ =
      ⟨stack, .text isKey .plain { done := cs.reverse ++ done }, root⟩ := by
  induction cs generalizing done with
  | nil => rfl
  | cons c rest ih =>
    rw [List.flatMap_cons, List.foldl_append, foldl_escapeChar, ih, List.reverse_cons,
      List.append_assoc]
    rfl

/-- A text between its quotes, the first of which has been read. -/
theorem foldl_quoted (text : String) (isKey : Bool) (reader : Reader)
    (hreader : reader.mode = .text isKey .plain {}) :
    (text.toList.flatMap escapeChar ++ ['"']).foldl step reader =
      finishText isKey { done := text.toList.reverse } reader := by
  obtain ⟨stack, mode, root⟩ := reader
  obtain rfl : mode = .text isKey .plain {} := hreader
  rw [List.foldl_append, foldl_escaped, List.append_nil, List.foldl_cons, List.foldl_nil]
  cases isKey <;> rfl

theorem text?_reverse (text : String) :
    Quoted.text? { done := text.toList.reverse } = some text := by
  simp [Quoted.text?, Quoted.settle]

theorem foldl_key (text : String) (fields : List (Option String × Json)) {mode : Mode}
    (hmode : mode = .key ∨ mode = .firstKey) :
    (quote text).foldl step ⟨.object fields :: stack, mode, root⟩ =
      ⟨.field fields (some text) :: stack, .colon, root⟩ := by
  unfold quote
  rw [List.cons_append, List.foldl_cons]
  have hquote : step ⟨.object fields :: stack, mode, root⟩ '"' =
      ⟨.object fields :: stack, .text true .plain {}, root⟩ := by
    rcases hmode with rfl | rfl <;> rfl
  rw [hquote, foldl_quoted text true _ rfl]
  unfold finishText
  rw [if_pos rfl, text?_reverse]

theorem finishValue_mode (value : Json) (mode mode' : Mode) :
    finishValue value ⟨stack, mode, root⟩ = finishValue value ⟨stack, mode', root⟩ := by
  cases stack with
  | nil => rfl
  | cons frame rest => cases frame <;> rfl

theorem startValue_mode (c : Char) (mode mode' : Mode) :
    startValue c ⟨stack, mode, root⟩ = startValue c ⟨stack, mode', root⟩ := by
  unfold startValue
  split <;> rfl

theorem chars_head {document : Json} (h : document.Plain) :
    ∃ c rest, document.chars = c :: rest ∧ isBlank c = false ∧ c ≠ ']' := by
  cases document with
  | null => exact ⟨'n', _, rfl, by decide, by decide⟩
  | bool flag =>
    cases flag
    · exact ⟨'f', _, rfl, by decide, by decide⟩
    · exact ⟨'t', _, rfl, by decide, by decide⟩
  | string text => exact ⟨'"', _, rfl, by decide, by decide⟩
  | array items => exact ⟨'[', _, rfl, by decide, by decide⟩
  | object fields => exact ⟨'\x7b', _, rfl, by decide, by decide⟩
  | number | garbled | unread => exact h.elim

theorem itemChars_head {item : Json} (h : item.Plain) (rest : List Json) :
    ∃ c tail, itemChars (item :: rest) = c :: tail ∧ isBlank c = false ∧ c ≠ ']' := by
  obtain ⟨c, tail, hchars, hc⟩ := chars_head h
  cases rest with
  | nil => exact ⟨c, tail, hchars, hc⟩
  | cons next rest =>
    refine ⟨c, tail ++ ',' :: itemChars (next :: rest), ?_, hc⟩
    change item.chars ++ ',' :: itemChars (next :: rest) = _
    rw [hchars, List.cons_append]

/-- Where the first item of an array may stand, any item is read as elsewhere. -/
theorem foldl_firstItem {item : Json} (h : item.Plain) (rest : List Json) :
    (itemChars (item :: rest)).foldl step ⟨stack, .firstItem, root⟩ =
      (itemChars (item :: rest)).foldl step ⟨stack, .value, root⟩ := by
  obtain ⟨c, tail, hchars, hblank, hclose⟩ := itemChars_head h rest
  have hstep : step ⟨stack, .firstItem, root⟩ c = step ⟨stack, .value, root⟩ c := by
    simp only [step, hblank, Bool.false_eq_true, if_false, if_neg hclose]
    exact startValue_mode c _ _
  rw [hchars, List.foldl_cons, List.foldl_cons, hstep]

theorem close_array (items : List Json) :
    step ⟨.array items :: stack, .after, root⟩ ']' =
      finishValue (.array items.reverse) ⟨stack, .value, root⟩ := finishValue_mode _ _ _

theorem close_object (fields : List (Option String × Json)) :
    step ⟨.object fields :: stack, .after, root⟩ '\x7d' =
      finishValue (.object fields.reverse) ⟨stack, .value, root⟩ := finishValue_mode _ _ _

-- The induction is on the document, its rows of items and its rows of fields at once.
mutual

theorem foldl_chars : ∀ {document : Json}, document.Plain → ∀ (stack : List Frame)
    (root : Option Json), document.chars.foldl step ⟨stack, .value, root⟩ =
      finishValue document ⟨stack, .value, root⟩
  | .null, _, _, _ => finishValue_mode .null _ _
  | .bool true, _, _, _ => finishValue_mode (.bool true) _ _
  | .bool false, _, _, _ => finishValue_mode (.bool false) _ _
  | .string text, _, stack, root => by
    have hopen : step ⟨stack, .value, root⟩ '"' = ⟨stack, .text false .plain {}, root⟩ := rfl
    rw [chars, quote, List.cons_append, List.foldl_cons, hopen, foldl_quoted text false _ rfl]
    unfold finishText
    rw [if_neg Bool.false_ne_true, text?_reverse]
    exact finishValue_mode (.string text) _ _
  | .array [], _, _, _ => finishValue_mode (.array []) _ _
  | .array (item :: rest), h, stack, root => by
    have hopen : step ⟨stack, .value, root⟩ '[' = ⟨.array [] :: stack, .firstItem, root⟩ := rfl
    rw [chars, List.cons_append, List.foldl_cons, hopen, List.foldl_append, foldl_firstItem h.1,
      foldl_itemChars (List.cons_ne_nil _ _) h, List.foldl_cons, List.foldl_nil, close_array,
      List.append_nil, List.reverse_reverse]
  | .object [], _, _, _ => finishValue_mode (.object []) _ _
  | .object (field :: rest), h, stack, root => by
    have hopen : step ⟨stack, .value, root⟩ '\x7b' = ⟨.object [] :: stack, .firstKey, root⟩ := rfl
    rw [chars, List.cons_append, List.foldl_cons, hopen, List.foldl_append,
      foldl_fieldChars (List.cons_ne_nil _ _) h (.inr rfl), List.foldl_cons, List.foldl_nil,
      close_object, List.append_nil, List.reverse_reverse]

theorem foldl_itemChars : ∀ {items : List Json}, items ≠ [] → PlainItems items →
    ∀ (done : List Json) (stack : List Frame) (root : Option Json),
      (itemChars items).foldl step ⟨.array done :: stack, .value, root⟩ =
        ⟨.array (items.reverse ++ done) :: stack, .after, root⟩
  | [item], _, h, _, _, root => foldl_chars h.1 _ root
  | item :: next :: rest, _, h, done, stack, root => by
    have hchars : itemChars (item :: next :: rest) =
        item.chars ++ ',' :: itemChars (next :: rest) := rfl
    have hcomma : step (finishValue item ⟨.array done :: stack, .value, root⟩) ',' =
        ⟨.array (item :: done) :: stack, .value, root⟩ := rfl
    rw [hchars, List.foldl_append, foldl_chars h.1, List.foldl_cons, hcomma,
      foldl_itemChars (List.cons_ne_nil _ _) h.2]
    simp

theorem foldl_fieldChars : ∀ {fields : List (Option String × Json)}, fields ≠ [] →
    PlainFields fields → ∀ {mode : Mode}, mode = .key ∨ mode = .firstKey →
    ∀ (done : List (Option String × Json)) (stack : List Frame) (root : Option Json),
      (fieldChars fields).foldl step ⟨.object done :: stack, mode, root⟩ =
        ⟨.object (fields.reverse ++ done) :: stack, .after, root⟩
  | [(some name, value)], _, h, _, hmode, done, stack, root => by
    have hchars : fieldChars [(some name, value)] = quote name ++ ':' :: value.chars := rfl
    have hcolon : step ⟨.field done (some name) :: stack, .colon, root⟩ ':' =
        ⟨.field done (some name) :: stack, .value, root⟩ := rfl
    rw [hchars, List.foldl_append, foldl_key name done hmode, List.foldl_cons, hcolon,
      foldl_chars h.2.1]
    rfl
  | (some name, value) :: next :: rest, _, h, _, hmode, done, stack, root => by
    have hchars : fieldChars ((some name, value) :: next :: rest) =
        quote name ++ ':' :: value.chars ++ ',' :: fieldChars (next :: rest) := rfl
    have hcolon : step ⟨.field done (some name) :: stack, .colon, root⟩ ':' =
        ⟨.field done (some name) :: stack, .value, root⟩ := rfl
    have hcomma : step (finishValue value ⟨.field done (some name) :: stack, .value, root⟩) ',' =
        ⟨.object ((some name, value) :: done) :: stack, .key, root⟩ := rfl
    rw [hchars, List.foldl_append, List.foldl_append, foldl_key name done hmode, List.foldl_cons,
      List.foldl_cons, hcolon, foldl_chars h.2.1, hcomma,
      foldl_fieldChars (List.cons_ne_nil _ _) h.2.2 (.inl rfl)]
    simp

end

end Reader

/-- A plain document is read back whole from its text. -/
theorem read_compact {document : Json} (h : document.Plain) :
    read document.compact = ⟨document, true⟩ := by
  unfold read compact
  rw [String.toList_ofList, Reader.foldl_chars h [] none]
  rfl

theorem readBytes_toBytes (text : String) : readBytes (Text.toBytes text) = read text := by
  unfold readBytes read
  rw [Text.decodeBytes_toBytes, List.foldl_map]
  rfl

theorem decode_compact {α : Type} {f : Json → Decoded α} {document : Json} {found : α}
    (h : document.Plain) (hfound : f document = .ok found) :
    decode f document.compact = .ok found := by
  rw [decode, read_compact h, Reading.decode, hfound]
  rfl

theorem decodeBytes_toBytes {α : Type} (f : Json → Decoded α) (text : String) :
    decodeBytes f (Text.toBytes text) = decode f text := by
  rw [decodeBytes, readBytes_toBytes, decode]

@[simp] theorem ok_bind {α β : Type} (found : α) (next : α → Decoded β) :
    (Except.ok found >>= next) = next found := rfl

@[simp] theorem pure_eq_ok {α : Type} (found : α) : (pure found : Decoded α) = .ok found := rfl

section Structure

variable {σ : Type} {take : String → Json → σ → Decoded σ} {names : List String}

theorem plainFields_ofFields {fields : List (String × Json)} :
    (ofFields fields).Plain ↔ ∀ field ∈ fields, field.2.Plain := by
  change PlainFields (fields.map fun field => (some field.1, field.2)) ↔ _
  induction fields with
  | nil => simp [PlainFields]
  | cons field rest ih => simp [PlainFields, ih]

theorem takeFields_cons {name : String} {value : Json} {seen : List String}
    (hvalue : value ≠ .unread) (hname : name ∈ names) (hseen : name ∉ seen)
    (rest : List (Option String × Json)) (known : σ) :
    takeFields take names ((some name, value) :: rest) seen known =
      (take name value known >>= takeFields take names rest (name :: seen)) := by
  rw [takeFields]
  · simp [hname, hseen]
  · exact hvalue

theorem takeFields_map {fields : List (String × Json)} (hknown : ∀ field ∈ fields, field.1 ∈ names)
    (hnodup : (fields.map Prod.fst).Nodup) (hplain : ∀ field ∈ fields, field.2.Plain)
    {seen : List String} (hseen : ∀ field ∈ fields, field.1 ∉ seen) (known : σ) :
    takeFields take names (fields.map fun field => (some field.1, field.2)) seen known =
      fields.foldlM (fun known field => take field.1 field.2 known) known := by
  induction fields generalizing seen known with
  | nil => rfl
  | cons field rest ih =>
    obtain ⟨hname, hrest⟩ := List.forall_mem_cons.mp hknown
    obtain ⟨hnew, hnodup⟩ := List.nodup_cons.mp hnodup
    obtain ⟨hvalue, hplain⟩ := List.forall_mem_cons.mp hplain
    obtain ⟨hfirst, hseen⟩ := List.forall_mem_cons.mp hseen
    have hread : field.2 ≠ .unread := fun h => by
      rw [h] at hvalue
      exact hvalue
    have hlater : ∀ later ∈ rest, later.1 ∉ field.1 :: seen := by
      intro later hlater hmem
      rcases List.mem_cons.mp hmem with hsame | hmem
      · exact hnew (hsame ▸ List.mem_map_of_mem hlater)
      · exact hseen later hlater hmem
    rw [List.map_cons, takeFields_cons hread hname hfirst, List.foldlM_cons]
    exact bind_congr fun known => ih hrest hnodup hplain hlater known

/-- A structure written as an object of fields in their order is read field by field. -/
theorem asStructure_ofFields (take : String → Json → σ → Decoded σ) {names : List String}
    {fields : List (String × Json)} (hnames : names.Nodup)
    (hfields : (fields.map Prod.fst).Sublist names) (hplain : ∀ field ∈ fields, field.2.Plain)
    (known : σ) :
    (ofFields fields).asStructure take names known =
      fields.foldlM (fun known field => take field.1 field.2 known) known :=
  takeFields_map (fun _ hfield => hfields.subset (List.mem_map_of_mem hfield))
    (hnames.sublist hfields) hplain (fun _ _ => List.not_mem_nil) known

end Structure

end ScopedStore.Json
