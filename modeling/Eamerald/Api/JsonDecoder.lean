import Eamerald.Api.Messages

/-! The decoder of `encoding/json`: a text is taken token by token or value by value, and a stack
of states says where in an array or an object the decoder is. -/

set_option autoImplicit false

namespace Eamerald.Json

inductive TokenState where
  | topValue
  | arrayStart
  | arrayValue
  | arrayComma
  | objectStart
  | objectKey
  | objectColon
  | objectValue
  | objectComma
deriving DecidableEq, Repr

def TokenState.valueAllowed : TokenState → Bool
  | .topValue | .arrayStart | .arrayValue | .objectValue => true
  | _ => false

def TokenState.valueEnd : TokenState → TokenState
  | .arrayStart | .arrayValue => .arrayComma
  | .objectValue => .objectComma
  | state => state

inductive DecodeError where
  | eof
  | failed (text : GoString)
deriving DecidableEq, Repr

inductive Token where
  | delim (char : Char)
  | string (text : GoString)
  | value (raw : GoString)
deriving DecidableEq, Repr

def Token.isDelim : Token → Bool
  | .delim _ => true
  | _ => false

/-- The scanner of the decoder: the first value of a text and what follows it. -/
structure Scanner where
  readValue : GoString → Except GoString (GoString × GoString)
  unmarshalString : GoString → Except GoString GoString
  tokenError : TokenState → Char → GoString

structure Decoder where
  rest : GoString
  state : TokenState := .topValue
  stack : List TokenState := []
  error : Option DecodeError := none
deriving DecidableEq, Repr

def whitespace (char : Char) : Bool := char = ' ' || char = '\t' || char = '\r' || char = '\n'

namespace Decoder

variable (scanner : Scanner) (decoder : Decoder)

def skipSpace : Decoder := { decoder with rest := decoder.rest.dropWhile whitespace }

def more : Bool × Decoder :=
  match decoder.skipSpace.rest.head? with
  | none => (false, decoder.skipSpace)
  | some char => (char ≠ ']' && char ≠ '}', decoder.skipSpace)

/-- The separator before a value, if one has to stand there. -/
def tokenPrepareForDecode : Except DecodeError Decoder :=
  match decoder.state with
  | .arrayComma =>
      match decoder.skipSpace.rest with
      | [] => .error .eof
      | char :: rest =>
          if char = ',' then .ok { decoder with rest, state := .arrayValue }
          else .error (.failed "expected comma after array element".toList)
  | .objectColon =>
      match decoder.skipSpace.rest with
      | [] => .error .eof
      | char :: rest =>
          if char = ':' then .ok { decoder with rest, state := .objectValue }
          else .error (.failed "expected colon after object key".toList)
  | _ => .ok decoder

/-- The value here. An error of the scanner is an error of all later calls. -/
def scanValue : Except DecodeError GoString × Decoder :=
  match scanner.readValue decoder.rest with
  | .error text => (.error (.failed text), { decoder with error := some (.failed text) })
  | .ok (raw, rest) => (.ok raw, { decoder with rest, state := decoder.state.valueEnd })

def decode : Except DecodeError GoString × Decoder :=
  match decoder.error with
  | some error => (.error error, decoder)
  | none =>
      match decoder.tokenPrepareForDecode with
      | .error error => (.error error, decoder)
      | .ok prepared =>
          if prepared.state.valueAllowed then prepared.scanValue scanner
          else (.error (.failed "not at beginning of value".toList), prepared)

/-- A key of an object that was decoded as if it were a text of its own. -/
def keyToken (outer : TokenState) : Except DecodeError GoString × Decoder →
    Except DecodeError Token × Decoder
  | (.error error, after) => (.error error, { after with state := outer })
  | (.ok raw, after) =>
      match scanner.unmarshalString raw with
      | .error text => (.error (.failed text), { after with state := outer })
      | .ok key => (.ok (.string key), { after with state := .objectColon })

def leave (rest : GoString) : Decoder :=
  match decoder.stack with
  | [] => { decoder with rest }
  | outer :: stack => { decoder with rest, state := outer.valueEnd, stack }

def enter (rest : GoString) (state : TokenState) : Decoder :=
  { decoder with rest, state, stack := decoder.state :: decoder.stack }

/-- The next token of the rest of the text. Colons and commas are passed over. -/
def tokenFrom (decoder : Decoder) : GoString → Except DecodeError Token × Decoder
  | [] => (.error .eof, { decoder with rest := [] })
  | char :: rest =>
      let here := { decoder with rest := char :: rest }
      let refused := (.error (.failed (scanner.tokenError decoder.state char)), here)
      if whitespace char then tokenFrom decoder rest
      else if char = '[' then
        if decoder.state.valueAllowed then (.ok (.delim '['), here.enter rest .arrayStart) else refused
      else if char = ']' then
        if decoder.state = .arrayStart ∨ decoder.state = .arrayComma then
          (.ok (.delim ']'), here.leave rest)
        else refused
      else if char = '\x7b' then
        if decoder.state.valueAllowed then (.ok (.delim '\x7b'), here.enter rest .objectStart) else refused
      else if char = '\x7d' then
        if decoder.state = .objectStart ∨ decoder.state = .objectComma then
          (.ok (.delim '\x7d'), here.leave rest)
        else refused
      else if char = ':' then
        if decoder.state = .objectColon then tokenFrom { decoder with state := .objectValue } rest
        else refused
      else if char = ',' then
        if decoder.state = .arrayComma then tokenFrom { decoder with state := .arrayValue } rest
        else if decoder.state = .objectComma then tokenFrom { decoder with state := .objectKey } rest
        else refused
      else if char = '"' ∧ (decoder.state = .objectStart ∨ decoder.state = .objectKey) then
        keyToken scanner decoder.state (decode scanner { here with state := .topValue })
      else if decoder.state.valueAllowed then
        match decode scanner here with
        | (.error error, after) => (.error error, after)
        | (.ok raw, after) => (.ok (.value raw), after)
      else refused

def token : Except DecodeError Token × Decoder := decoder.tokenFrom scanner decoder.rest

end Decoder

end Eamerald.Json
