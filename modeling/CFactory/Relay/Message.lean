import CFactory.Progress.Poll

/-!
# Messages of the live feeds

`upstream_ws.py:37–110` and `adapters/base.py:71–87`. A service's message is a JSON object in
one of several envelopes; its parts are looked up under the keys that any of them uses. An
event read from a message has neither an id of its own nor a worker.
-/

namespace CFactory.Relay

open CFactory.Model CFactory.Progress

/-- A JSON value, after `json.loads`. A number keeps its text under `str()`. -/
inductive Json where
  | null
  | bool (b : Bool)
  | number (text : String)
  | string (s : String)
  | array (items : List Json)
  | object (fields : List (String × Json))

/-! ### Texts of values -/

/-- Two or more lowercase hexadecimal digits, padded with zeros. -/
def hexDigits (width n : Nat) : String :=
  let digits := Nat.toDigits 16 n
  String.ofList (List.replicate (width - digits.length) '0' ++ digits)

/-- One character of `repr` of a string. -/
def reprChar (isprintable : Char → Bool) (quote c : Char) : String :=
  if c = quote ∨ c = '\\' then String.ofList ['\\', c]
  else if c = '\t' then "\\t"
  else if c = '\n' then "\\n"
  else if c = '\r' then "\\r"
  else if ' ' ≤ c ∧ c.toNat < 127 ∨ 127 < c.toNat ∧ isprintable c then String.ofList [c]
  else if c.toNat ≤ 0xff then "\\x" ++ hexDigits 2 c.toNat
  else if c.toNat ≤ 0xffff then "\\u" ++ hexDigits 4 c.toNat
  else "\\U" ++ hexDigits 8 c.toNat

/-- `repr` of a string: in single quotes, or in double ones where it has single ones only. -/
def reprString (isprintable : Char → Bool) (s : String) : String :=
  let quote := if '\'' ∈ s.toList ∧ '"' ∉ s.toList then '"' else '\''
  String.ofList [quote] ++ String.join (s.toList.map (reprChar isprintable quote)) ++
    String.ofList [quote]

mutual

/-- `repr(value)`. -/
def Json.repr (isprintable : Char → Bool) : Json → String
  | .null => "None"
  | .bool true => "True"
  | .bool false => "False"
  | .number text => text
  | .string s => reprString isprintable s
  | .array items => "[" ++ ", ".intercalate (Json.reprItems isprintable items) ++ "]"
  | .object fields =>
    "\x7b" ++ ", ".intercalate (Json.reprFields isprintable fields) ++ "\x7d"

/-- The texts of an array's items. -/
def Json.reprItems (isprintable : Char → Bool) : List Json → List String
  | [] => []
  | v :: rest => Json.repr isprintable v :: Json.reprItems isprintable rest

/-- The texts of an object's entries. -/
def Json.reprFields (isprintable : Char → Bool) : List (String × Json) → List String
  | [] => []
  | (k, v) :: rest =>
    (reprString isprintable k ++ ": " ++ Json.repr isprintable v) ::
      Json.reprFields isprintable rest

end

/-- `str(value)`: a string is its own text. -/
def Json.str (isprintable : Char → Bool) : Json → String
  | .string s => s
  | v => v.repr isprintable

/-! ### Looking up keys -/

/-- `cur[part]`, where the value is an object that has the part. -/
def Json.get? : Json → String → Option Json
  | .object fields, part => fields.lookup part
  | _, _ => none

/-- A value other than null. -/
def Json.present : Json → Option Json
  | .null => none
  | v => some v

/-- `first`, with every dotted path split into its parts; `adapters/base.py:71–87`. -/
def first (d : Json) (keys : List (List String)) : Option Json :=
  keys.findSome? fun parts ↦ (parts.foldlM Json.get? d).bind Json.present

/-- The keys of a correlation key; `upstream_ws.py:57–68`. -/
def correlationKeys : List (List String) :=
  [["correlation_key"], ["correlationKey"], ["task_id"], ["id"], ["payload", "correlation_key"],
    ["payload", "correlationKey"], ["payload", "taskId"], ["payload", "task_id"],
    ["payload", "id"]]

/-- The keys of a task id; `upstream_ws.py:69–80`. -/
def taskIdKeys : List (List String) :=
  [["task_id"], ["id"], ["spec_id"], ["session_id"], ["payload", "taskId"],
    ["payload", "task_id"], ["payload", "id"], ["payload", "sessionId"], ["payload", "session_id"]]

/-- The keys of a status; `upstream_ws.py:81`. -/
def statusKeys : List (List String) :=
  [["status"], ["board_state"], ["payload", "status"], ["payload", "board_state"]]

/-- The keys of a timestamp; `upstream_ws.py:85`. -/
def timestampKeys : List (List String) :=
  [["updated_at"], ["payload", "updated_at"], ["payload", "updatedAt"]]

/-- The keys of a plan-review verdict; `upstream_ws.py:98`. -/
def reviewKeys : List (List String) :=
  [["review"], ["plan_review"], ["gates"], ["payload", "review"]]

/-- The keys of a phase; `upstream_ws.py:107`. -/
def phaseKeys : List (List String) := [["phase"], ["payload", "phase"]]

/-! ### Parsing -/

/-- What the parser takes from the standard library: `json.loads`, none where it raises,
`datetime.fromisoformat` likewise, and the characters that `repr` leaves as they are. -/
structure Parser (Raw : Type) where
  loads : Raw → Option Json
  fromIsoFormat : String → Option DateTime
  isprintable : Char → Bool

/-- The `ValidationError` of a model, by the field it names. -/
structure ValidationError where
  field : String
  deriving DecidableEq

variable {Raw : Type} (parser : Parser Raw)

/-- The timestamp of a message, or the clock's where it has none that can be read. A reading
without an offset is UTC; `upstream_ws.py:85–89`. -/
def timestamp (data : Json) (now : Time) : Time :=
  match first data timestampKeys with
  | some (.string text) =>
    ((parser.fromIsoFormat text).map fun t ↦ t.reading - t.utcoffset.getD 0).getD now
  | _ => now

/-- The plan-review verdict of a message, if it is an object; `upstream_ws.py:98–100`. -/
def review (data : Json) : Option Block :=
  match first data reviewKeys with
  | some (.object fields) => some (fields.map fun f ↦ (f.1, f.2.str parser.isprintable))
  | _ => none

/-- The phase of a message, which the event's model takes only as a string. -/
def phase (data : Json) : Except ValidationError (Option String) :=
  match first data phaseKeys with
  | none => .ok none
  | some (.string s) => .ok (some s)
  | some _ => .error ⟨"phase"⟩

/-- The event of a message whose parts are there; `upstream_ws.py:102–110`. -/
def messageEvent (service : Service) (data key taskId status : Json) (phase : Option String)
    (now : Time) : CompletionEvent :=
  { correlationKey := key.str parser.isprintable
    service
    taskId := taskId.str parser.isprintable
    status := status.str parser.isprintable
    phase
    updatedAt := timestamp parser data now
    annotations := fun f ↦ if f = .review then review parser data else none }

/-- `parse_upstream_message`; `upstream_ws.py:37–110`. -/
def parseUpstreamMessage (service : Service) (raw : Raw) (now : Time) :
    Except ValidationError (Option CompletionEvent) :=
  match parser.loads raw with
  | some (.object fields) =>
    let data := Json.object fields
    match first data correlationKeys, first data taskIdKeys, first data statusKeys with
    | some key, some taskId, some status =>
      (phase data).map fun phase ↦
        some (messageEvent parser service data key taskId status phase now)
    | _, _, _ => .ok none
  | _ => .ok none

/-- The parser accepts a message, at some reading of the clock. -/
def Parser.Accepts (service : Service) (raw : Raw) : Prop :=
  ∃ now event, parseUpstreamMessage parser service raw now = .ok (some event)

/-- What the parser makes of a message is told by its parts; the clock dates it at most. -/
theorem parse_cases (service : Service) (raw : Raw) :
    (∃ data key taskId status phase, ∀ now,
      parseUpstreamMessage parser service raw now =
        .ok (some (messageEvent parser service data key taskId status phase now))) ∨
    ∀ now event, parseUpstreamMessage parser service raw now ≠ .ok (some event) := by
  unfold parseUpstreamMessage
  split
  · next fields _ =>
    dsimp only
    split
    · next key taskId status _ _ _ =>
      cases hphase : phase (.object fields) with
      | error e =>
        right
        intro now event h
        cases h
      | ok phase => exact .inl ⟨_, key, taskId, status, phase, fun _ ↦ rfl⟩
    · right
      intro now event h
      cases h
  · right
    intro now event h
    cases h

/-- A message that is accepted once is accepted at any time. -/
theorem Parser.Accepts.parse {parser : Parser Raw} {service : Service} {raw : Raw}
    (h : parser.Accepts service raw) (now : Time) :
    ∃ event, parseUpstreamMessage parser service raw now = .ok (some event) := by
  obtain ⟨earlier, event, hevent⟩ := h
  cases parse_cases parser service raw with
  | inl hparts =>
    obtain ⟨data, key, taskId, status, phase, hall⟩ := hparts
    exact ⟨_, hall now⟩
  | inr hnone => exact absurd hevent (hnone _ _)

/-- An event that was read from a message has no id and no worker. -/
theorem anonymous_of_parse {parser : Parser Raw} {service : Service} {raw : Raw} {now : Time}
    {event : CompletionEvent}
    (h : parseUpstreamMessage parser service raw now = .ok (some event)) :
    event.id = none ∧ event.worker = none := by
  cases parse_cases parser service raw with
  | inl hparts =>
    obtain ⟨data, key, taskId, status, phase, hall⟩ := hparts
    rw [hall now] at h
    cases h
    exact ⟨rfl, rfl⟩
  | inr hnone => exact absurd h (hnone _ _)

end CFactory.Relay
