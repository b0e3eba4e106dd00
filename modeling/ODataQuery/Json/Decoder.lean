import ODataQuery.Json.Reader

/-!
From trees to values. A tree is judged in the order of its text, so that of several faults the first one
is reported. A record may be written as an object or as an array of its fields in order; unknown members
are passed over, and a field must not be given twice.
-/

namespace ODataQuery.Json

/-- Why a text gives no value. -/
inductive DecodeError where
  /-- It is no JSON, or not of the form that was asked for. -/
  | malformed
  /-- A string in it is refused, with a message that says why. -/
  | refused (message : String)
  deriving DecidableEq

abbrev Decoder (α : Type) := Json → Except DecodeError α

def decodeString : Decoder String
  | string (some s) => .ok s
  | _ => .error .malformed

/-- A number below `2 ^ 32`, without sign, fraction or exponent. -/
def decodeCount : Decoder UInt32
  | number written =>
    match natural? written with
    | some n => if h : n < UInt32.size then .ok (.ofNatLT n h) else .error .malformed
    | none => .error .malformed
  | _ => .error .malformed

def decodeOption (decode : Decoder α) : Decoder (Option α)
  | null => .ok none
  | j => (decode j).map some

def decodeItems (decode : Decoder α) : List Json → Except DecodeError (List α)
  | [] => .ok []
  | j :: js => do
    let a ← decode j
    let as ← decodeItems decode js
    .ok (a :: as)

def decodeList (decode : Decoder α) : Decoder (List α)
  | array items => decodeItems decode items
  | _ => .error .malformed

/-- One of several names, also written as the only key of an object that holds null. -/
def decodeName (find? : String → Option α) : Decoder α
  | string (some s) => (find? s).elim (.error .malformed) .ok
  | object [(some s, null)] => (find? s).elim (.error .malformed) .ok
  | _ => .error .malformed

/-- A string with a meaning. One without is refused. -/
def decodeMeaning (meaning? : String → Option α) (refusal : String → String) : Decoder α
  | string (some s) => (meaning? s).elim (.error (.refused (refusal s))) .ok
  | _ => .error .malformed

/-- A field of a record, of whose fields `σ` holds those read so far: the keys it goes by, whether it
has been read, and how it is read. -/
structure RecordField (σ : Type) where
  keys : List String
  isRead : σ → Bool
  read : Json → σ → Except DecodeError σ

/-- A field that is kept as an option until all are read. -/
def RecordField.of (keys : List String) (decode : Decoder α) (get : σ → Option α) (put : α → σ → σ) :
    RecordField σ where
  keys
  isRead s := (get s).isSome
  read j s := (decode j).map (put · s)

def readMember (fields : List (RecordField σ)) (s : σ) : Option String × Json → Except DecodeError σ
  | (none, _) => .error .malformed
  | (some key, j) =>
    match fields.find? (·.keys.contains key) with
    | some field => if field.isRead s then .error .malformed else field.read j s
    | none => if j.isWhole then .ok s else .error .malformed

def readInOrder : List (RecordField σ) → List Json → σ → Except DecodeError σ
  | _, [], s => .ok s
  | [], _ :: _, _ => .error .malformed
  | field :: fields, j :: js, s => field.read j s >>= readInOrder fields js

/-- The fields of a record, as far as they are given. -/
def readFields (fields : List (RecordField σ)) (none : σ) : Decoder σ
  | object members => members.foldlM (readMember fields) none
  | array items => readInOrder fields items none
  | _ => .error .malformed

/-- The value of a field that must be given. -/
def required : Option α → Except DecodeError α
  | some a => .ok a
  | none => .error .malformed

/-- The members of an object, each with its key. -/
def decodeMembers (decode : Decoder α) :
    List (Option String × Json) → Except DecodeError (List (String × α))
  | [] => .ok []
  | (none, _) :: _ => .error .malformed
  | (some key, j) :: rest => do
    let a ← decode j
    let as ← decodeMembers decode rest
    .ok ((key, a) :: as)

/-- The value of a whole text. Behind it only blanks may follow. -/
def decodeText (decode : Decoder α) (text : String) : Except DecodeError α := do
  let (j, rest) := read text
  let a ← decode j
  if skipBlanks rest = [] then .ok a else .error .malformed

end ODataQuery.Json
