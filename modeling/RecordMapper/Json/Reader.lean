import RecordMapper.Json.Token

/-!
# Reading JSON documents

Tokens are fed one by one to a reader that remembers the arrays and objects it is inside of.
-/

namespace RecordMapper.Json

/-- An array or object that is not closed yet; what it holds stands last first. -/
inductive Frame
  | array (items : List Json)
  | object (members : List (String × Json)) (name : String)

/-- What may come next. -/
inductive Expecting
  | value
  /-- The first item of an array, or its end. -/
  | firstItem
  /-- The first name of an object, or its end. -/
  | firstName (members : List (String × Json))
  | name (members : List (String × Json))
  | colon (members : List (String × Json)) (name : String)
  /-- A comma or the end of the innermost frame. -/
  | separator
  | nothing (document : Json)

structure Reader where
  frames : List Frame
  expecting : Expecting

def Reader.complete (value : Json) : List Frame → Reader
  | [] => ⟨[], .nothing value⟩
  | .array items :: frames => ⟨.array (value :: items) :: frames, .separator⟩
  | .object members name :: frames => ⟨.object ((name, value) :: members) name :: frames, .separator⟩

def Reader.begin (frames : List Frame) : Token → Option Reader
  | .openArray => some ⟨.array [] :: frames, .firstItem⟩
  | .openObject => some ⟨frames, .firstName []⟩
  | .scalar value => some (Reader.complete value frames)
  | _ => none

def Reader.feed (reader : Reader) (token : Token) : Option Reader :=
  match reader.expecting, token, reader.frames with
  | .firstItem, .closeArray, .array _ :: frames => some (Reader.complete (.array []) frames)
  | .firstItem, token, frames => Reader.begin frames token
  | .value, token, frames => Reader.begin frames token
  | .firstName _, .closeObject, frames => some (Reader.complete (.object []) frames)
  | .firstName members, .scalar (.string name), frames => some ⟨frames, .colon members name⟩
  | .name members, .scalar (.string name), frames => some ⟨frames, .colon members name⟩
  | .colon members name, .colon, frames => some ⟨.object members name :: frames, .value⟩
  | .separator, .comma, .array items :: frames => some ⟨.array items :: frames, .value⟩
  | .separator, .comma, .object members _ :: frames => some ⟨frames, .name members⟩
  | .separator, .closeArray, .array items :: frames =>
      some (Reader.complete (.array items.reverse) frames)
  | .separator, .closeObject, .object members _ :: frames =>
      some (Reader.complete (.object members.reverse) frames)
  | _, _, _ => none

def parse? (text : String) : Option Json := do
  let last ← (← tokens text.toList).foldlM Reader.feed ⟨[], .value⟩
  match last.expecting with
  | .nothing document => some document
  | _ => none

end RecordMapper.Json
