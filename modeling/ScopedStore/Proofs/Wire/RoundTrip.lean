import ScopedStore.Wire.Message
import ScopedStore.Proofs.Json.ReadBack
import ScopedStore.Proofs.Time.Texts

/-! The messages of the account service survive their JSON form. What is written is one document,
which reads as the message it was written from; so whatever document a message was read from, in
whatever spelling, writing it down and reading it again changes nothing. -/
namespace ScopedStore.Wire

theorem Visibility.ofJson_toJson (scope : Visibility) : ofJson scope.toJson = .ok scope := by
  cases scope <;> rfl

namespace Key

theorem toJson_plain (key : Key) : key.toJson.Plain := by
  simp [toJson, Visibility.toJson, Json.plainFields_ofFields, Json.Plain]

theorem ofJson_toJson (key : Key) : ofJson key.toJson = .ok key := by
  have hnames : ["appId", "key", "scope"].Nodup := by decide
  unfold ofJson toJson
  rw [Json.asStructure_ofFields take hnames (.refl _)
    (Json.plainFields_ofFields.mp key.toJson_plain)]
  simp [take, Visibility.ofJson_toJson, Json.asString]

end Key

theorem durationOfJson_text (d : Duration) : durationOfJson (.string d.text) = .ok d := by
  simp [durationOfJson, Json.asString, Duration.parse?_text]

theorem timestampOfJson_text (t : Timestamp) : timestampOfJson (.string t.text) = .ok t := by
  simp [timestampOfJson, Json.asString, Timestamp.parse?_text]

namespace Value

theorem optional_names (name : String) (value : Option Json) :
    ((optional name value).map Prod.fst).Sublist [name] := by
  cases value <;> simp [optional]

theorem optional_plain {name : String} {value : Option Json} (h : ∀ d ∈ value, d.Plain) :
    ∀ field ∈ optional name value, field.2.Plain := by
  intro field hfield
  obtain ⟨document, hdocument, rfl⟩ := Option.map_eq_some_iff.mp (Option.mem_toList.mp hfield)
  exact h document hdocument

/-- A field that may be left out is read where it is there. -/
theorem foldlM_optional {σ α : Type} (take : String → Json → σ → Decoded σ) (name : String)
    (found : Option α) (write : α → Json) (known : σ) :
    (optional name (found.map write)).foldlM (fun known field => take field.1 field.2 known) known =
      found.elim (.ok known) fun a => take name (write a) known := by
  cases found with
  | none => rfl
  | some a => exact bind_pure _

theorem fields_names (v : Value) :
    (v.fields.map Prod.fst).Sublist ["key", "value", "ttl", "expireTime"] := by
  unfold fields
  simp only [List.map_append]
  exact (((optional_names _ _).append (.refl _)).append (optional_names _ _)).append
    (optional_names _ _)

theorem fields_plain (v : Value) : ∀ field ∈ v.fields, field.2.Plain := by
  have hplain {α : Type} {found : Option α} {write : α → Json} (h : ∀ a, (write a).Plain) :
      ∀ document ∈ found.map write, document.Plain := by
    intro document hdocument
    obtain ⟨a, _, rfl⟩ := Option.map_eq_some_iff.mp hdocument
    exact h a
  unfold fields
  simp only [List.forall_mem_append]
  exact ⟨⟨⟨optional_plain (hplain Key.toJson_plain), by simp [Json.Plain]⟩,
    optional_plain (hplain fun _ => trivial)⟩, optional_plain (hplain fun _ => trivial)⟩

theorem toJson_plain (v : Value) : v.toJson.Plain := Json.plainFields_ofFields.mpr v.fields_plain

theorem take_key (key : Key) (known : Value) :
    take "key" key.toJson known = .ok { known with key := some key } := by
  have hoption : key.toJson.asOption Key.ofJson = (Key.ofJson key.toJson).map some := rfl
  simp only [take, hoption, Key.ofJson_toJson]
  rfl

theorem take_value (value : String) (known : Value) :
    take "value" (.string value) known = .ok { known with value := value } := rfl

theorem take_ttl (d : Duration) (known : Value) :
    take "ttl" (.string d.text) known = .ok { known with ttl := some d } := by
  have hoption : (Json.string d.text).asOption durationOfJson =
      (durationOfJson (.string d.text)).map some := rfl
  simp only [take, hoption, durationOfJson_text]
  rfl

theorem take_expireTime (t : Timestamp) (known : Value) :
    take "expireTime" (.string t.text) known = .ok { known with expireTime := some t } := by
  have hoption : (Json.string t.text).asOption timestampOfJson =
      (timestampOfJson (.string t.text)).map some := rfl
  simp only [take, hoption, timestampOfJson_text]
  rfl

theorem ofJson_toJson (v : Value) : ofJson v.toJson = .ok v := by
  have hnames : ["key", "value", "ttl", "expireTime"].Nodup := by decide
  unfold ofJson toJson
  rw [Json.asStructure_ofFields take hnames v.fields_names v.fields_plain]
  unfold fields
  simp only [List.foldlM_append, foldlM_optional, List.foldlM_cons, List.foldlM_nil, take_key,
    take_value, take_ttl, take_expireTime]
  obtain ⟨key, value, ttl, expireTime⟩ := v
  cases key <;> cases ttl <;> cases expireTime <;> rfl

end Value

theorem ofField_ofFields {α : Type} {name : String} {f : Json → Decoded α} {document : Json}
    {found : α} (hplain : document.Plain) (h : f document = .ok found) :
    ofField name f (.ofFields [(name, document)]) = .ok found := by
  unfold ofField
  rw [Json.asStructure_ofFields _ (List.nodup_singleton name) (.refl _) (by simpa using hplain)]
  simp [h, Except.map, Json.require]

theorem plain_ofField {name : String} {document : Json} (h : document.Plain) :
    (Json.ofFields [(name, document)]).Plain :=
  Json.plainFields_ofFields.mpr (by simpa using h)

theorem GetValueRequest.ofJson_toJson (request : GetValueRequest) :
    ofJson request.toJson = .ok request := by
  unfold ofJson toJson
  rw [ofField_ofFields request.key.toJson_plain request.key.ofJson_toJson]
  rfl

theorem UpdateValueRequest.ofJson_toJson (request : UpdateValueRequest) :
    ofJson request.toJson = .ok request := by
  unfold ofJson toJson
  rw [ofField_ofFields request.value.toJson_plain request.value.ofJson_toJson]
  rfl

theorem DeleteValueRequest.ofJson_toJson (request : DeleteValueRequest) :
    ofJson request.toJson = .ok request := by
  unfold ofJson toJson
  rw [ofField_ofFields request.key.toJson_plain request.key.ofJson_toJson]
  rfl

theorem GetValueResponse.ofJson_toJson (response : GetValueResponse) :
    ofJson response.toJson = .ok response := by
  obtain ⟨value⟩ := response
  cases value with
  | none => rfl
  | some value =>
    have hoption : value.toJson.asOption Value.ofJson = (Value.ofJson value.toJson).map some := rfl
    have hplain : ∀ field ∈ [("value", value.toJson)], field.2.Plain := by
      simpa using value.toJson_plain
    unfold ofJson toJson
    rw [Option.map_some, Option.toList_some,
      Json.asStructure_ofFields _ (List.nodup_singleton "value") (.refl _) hplain]
    simp [hoption, Value.ofJson_toJson, Except.map]

theorem DeleteAllValuesRequest.toJson_plain (request : DeleteAllValuesRequest) :
    request.toJson.Plain := by
  simp [toJson, Visibility.toJson, Json.plainFields_ofFields, Json.Plain]

theorem DeleteAllValuesRequest.ofJson_toJson (request : DeleteAllValuesRequest) :
    ofJson request.toJson = .ok request := by
  have hnames : ["appId", "scope"].Nodup := by decide
  unfold ofJson toJson
  rw [Json.asStructure_ofFields take hnames (.refl _)
    (Json.plainFields_ofFields.mp request.toJson_plain)]
  simp [take, Visibility.ofJson_toJson, Json.asString, Json.require]

inductive Kind where
  | key
  | value
  | getValueRequest
  | getValueResponse
  | updateValueRequest
  | deleteValueRequest
  | deleteAllValuesRequest
  deriving DecidableEq

namespace Kind

@[reducible] def Message : Kind → Type
  | key => Key
  | value => Value
  | getValueRequest => GetValueRequest
  | getValueResponse => GetValueResponse
  | updateValueRequest => UpdateValueRequest
  | deleteValueRequest => DeleteValueRequest
  | deleteAllValuesRequest => DeleteAllValuesRequest

def toJson : (kind : Kind) → kind.Message → Json
  | key, message => message.toJson
  | value, message => message.toJson
  | getValueRequest, message => message.toJson
  | getValueResponse, message => message.toJson
  | updateValueRequest, message => message.toJson
  | deleteValueRequest, message => message.toJson
  | deleteAllValuesRequest, message => message.toJson

def ofJson : (kind : Kind) → Json → Decoded kind.Message
  | key => Key.ofJson
  | value => Value.ofJson
  | getValueRequest => GetValueRequest.ofJson
  | getValueResponse => GetValueResponse.ofJson
  | updateValueRequest => UpdateValueRequest.ofJson
  | deleteValueRequest => DeleteValueRequest.ofJson
  | deleteAllValuesRequest => DeleteAllValuesRequest.ofJson

def encode (kind : Kind) (message : kind.Message) : String := (kind.toJson message).compact

def decode (kind : Kind) (text : String) : Decoded kind.Message := Json.decode kind.ofJson text

def decodeBytes (kind : Kind) (bytes : Text.Bytes) : Decoded kind.Message :=
  Json.decodeBytes kind.ofJson bytes

theorem toJson_plain (kind : Kind) (message : kind.Message) : (kind.toJson message).Plain := by
  cases kind with
  | key => exact Key.toJson_plain message
  | value => exact Value.toJson_plain message
  | getValueRequest => exact plain_ofField message.key.toJson_plain
  | getValueResponse =>
    obtain ⟨value⟩ := message
    cases value with
    | none => exact trivial
    | some value => exact plain_ofField value.toJson_plain
  | updateValueRequest => exact plain_ofField message.value.toJson_plain
  | deleteValueRequest => exact plain_ofField message.key.toJson_plain
  | deleteAllValuesRequest => exact DeleteAllValuesRequest.toJson_plain message

theorem ofJson_toJson (kind : Kind) (message : kind.Message) :
    kind.ofJson (kind.toJson message) = .ok message := by
  cases kind with
  | key => exact Key.ofJson_toJson message
  | value => exact Value.ofJson_toJson message
  | getValueRequest => exact GetValueRequest.ofJson_toJson message
  | getValueResponse => exact GetValueResponse.ofJson_toJson message
  | updateValueRequest => exact UpdateValueRequest.ofJson_toJson message
  | deleteValueRequest => exact DeleteValueRequest.ofJson_toJson message
  | deleteAllValuesRequest => exact DeleteAllValuesRequest.ofJson_toJson message

theorem decode_encode (kind : Kind) (message : kind.Message) :
    kind.decode (kind.encode message) = .ok message :=
  Json.decode_compact (kind.toJson_plain message) (kind.ofJson_toJson message)

theorem decodeBytes_encode (kind : Kind) (message : kind.Message) :
    kind.decodeBytes (Text.toBytes (kind.encode message)) = .ok message := by
  rw [decodeBytes, Json.decodeBytes_toBytes]
  exact kind.decode_encode message

/-- A message of any kind is written as one whole document, which reads as that message. A document
that is read as a message in whatever spelling, as a text or as bytes, tells no more than what is
written of that message. -/
theorem messages_round_trip (kind : Kind) :
    (∀ message, Json.read (kind.encode message) = ⟨kind.toJson message, true⟩ ∧
      kind.decode (kind.encode message) = .ok message ∧
      kind.decodeBytes (Text.toBytes (kind.encode message)) = .ok message) ∧
    (∀ text message, kind.decode text = .ok message →
      kind.decode (kind.encode message) = .ok message) ∧
    (∀ bytes message, kind.decodeBytes bytes = .ok message →
      kind.decodeBytes (Text.toBytes (kind.encode message)) = .ok message) :=
  ⟨fun message => ⟨Json.read_compact (kind.toJson_plain message), kind.decode_encode message,
      kind.decodeBytes_encode message⟩,
    fun _ message _ => kind.decode_encode message,
    fun _ message _ => kind.decodeBytes_encode message⟩

/-- An answer with its fields out of order, an unknown one, escapes, a padded lifetime and a leap
second, and one in bytes that skips text no string can hold. -/
theorem messages_round_trip_respelled :
    let text := "\x7b\"more\": [1e400, \x7b\x7d], \"value\" : \x7b\"ttl\":\"007.50s\",\"value\":" ++
      "\"\\u0061\\ud83d\\ude00\\n\",\"expireTime\": \"2016-12-31t15:59:60.5-08:00\"," ++
      "\"key\": [\"app\"]\x7d\x7d"
    let leap : Timestamp :=
      ⟨2016, 12, 31, 15, 59, 59, 999999999, -480, by decide, by decide, by decide, by decide,
        by decide, by decide, by decide, by decide⟩
    let answer : GetValueResponse :=
      ⟨some ⟨some ⟨"app", "", .unspecified⟩, "a😀\n", some ⟨7, 500000000, by decide⟩, some leap⟩⟩
    let bytes : Text.Bytes := [0x7b, 0x22, 0x61, 0x22, 0x3a, 0x22, 0xff, 0x22, 0x7d]
    let kind : Kind := .getValueResponse
    kind.decode text = .ok answer ∧ kind.decode (kind.encode answer) = .ok answer ∧
      kind.decodeBytes bytes = .ok {} ∧
      kind.decodeBytes (Text.toBytes (kind.encode {})) = .ok {} := by
  intro text leap answer bytes kind
  have haccepted : kind.decode text = .ok answer := by decide +kernel
  have hskipped : kind.decodeBytes bytes = .ok {} := by decide +kernel
  exact ⟨haccepted, (messages_round_trip kind).2.1 text answer haccepted, hskipped,
    (messages_round_trip kind).2.2 bytes {} hskipped⟩

end Kind

end ScopedStore.Wire
