import Eamerald.Api.JsonDecoder
import Eamerald.Api.Text
import Eamerald.Directory.RoundTrip

/-! Backups as files of JSON arrays. The writer puts the separator before it marshals an element, and
the commands that write print the errors of elements and go on. -/

set_option autoImplicit false

namespace Eamerald.Command

open Foundation Store Directory Json

variable {text : GoString} {key : GoString}

section Writer

/-- The text of a message, if it has one, and the message of a text. -/
structure MessageJson (M : Type) where
  marshal : M → Except Err GoString
  unmarshal : GoString → Except DecodeError M

structure JsWriter where
  text : GoString
  first : Bool
deriving DecidableEq, Repr

def quoted (key : GoString) : GoString := '"' :: key ++ ['"']

def newWriter (key : GoString) : JsWriter where
  text := "\x7b\n".toList ++ (quoted key ++ ":\n".toList) ++ "[\n".toList
  first := false

def JsWriter.write {M : Type} (json : MessageJson M) (writer : JsWriter) (message : M) :
    Except Err Unit × JsWriter :=
  let text := if writer.first then writer.text ++ ",".toList else writer.text
  match json.marshal message with
  | .error error => (.error error, ⟨text, true⟩)
  | .ok written => (.ok (), ⟨text ++ written, true⟩)

def JsWriter.close (writer : JsWriter) : GoString := writer.text ++ "]\n".toList ++ "\x7d\n".toList

def objectsStr : GoString := "objects".toList
def relationsStr : GoString := "relations".toList

/-- The messages of an export and its end: what is returned, the files, and the errors printed. -/
structure BackupFiles where
  outcome : Except Err Unit
  objects : GoString
  relations : GoString
  printed : List Err

variable (objectJson : MessageJson Object) (relationJson : MessageJson Relation)

def printError : Except Err Unit → List Err → List Err
  | .ok _, printed => printed
  | .error error, printed => error :: printed

def writeMessages (ending : Except Err Unit) (objects relations : JsWriter) (printed : List Err) :
    List ExportMessage → BackupFiles
  | [] => ⟨ending, objects.close, relations.close, printed.reverse⟩
  | .object message :: rest =>
      let (result, objects) := objects.write objectJson message
      writeMessages ending objects relations (printError result printed) rest
  | .relation message :: rest =>
      let (result, relations) := relations.write relationJson message
      writeMessages ending objects relations (printError result printed) rest
  | .stats _ :: rest => writeMessages ending objects relations printed rest

def createBackupFiles (ending : Except Err Unit) (messages : List ExportMessage) : BackupFiles :=
  writeMessages objectJson relationJson ending (newWriter objectsStr) (newWriter relationsStr) [] messages

def clientExport (ending : Except Err Unit) (messages : List ExportMessage) : BackupFiles :=
  writeMessages objectJson relationJson ending (newWriter objectsStr) (newWriter relationsStr) [] messages

end Writer

section Reader

variable (scanner : Scanner)

structure JsReader where
  decoder : Decoder
  rootKey : GoString

def notAnArray : DecodeError := .failed "file does not contain a JSON array".toList

def newReader (text : GoString) : Except DecodeError JsReader :=
  match Decoder.token scanner { rest := text } with
  | (.error error, _) => .error error
  | (.ok (.delim '\x7b'), decoder) =>
      match decoder.token scanner with
      | (.error error, _) => .error error
      | (.ok key, decoder) =>
          match decoder.token scanner with
          | (.error error, _) => .error error
          | (.ok token, decoder) =>
              if token.isDelim then
                .ok ⟨decoder, match key with
                  | .string text => text
                  | _ => []⟩
              else .error notAnArray
  | (.ok _, _) => .error (.failed "unsupported file format".toList)

def readEnd (decoder : Decoder) : DecodeError × Decoder :=
  match decoder.token scanner with
  | (.error error, decoder) => (error, decoder)
  | (.ok token, decoder) =>
      if token.isDelim then
        match decoder.token scanner with
        | (.error error, decoder) => (error, decoder)
        | (.ok _, decoder) => (.eof, decoder)
      else (notAnArray, decoder)

variable {M : Type} (json : MessageJson M)

def unmarshalNext (decoder : Decoder) : Except DecodeError M × Decoder :=
  match decoder.decode scanner with
  | (.error error, decoder) => (.error error, decoder)
  | (.ok raw, decoder) => (json.unmarshal raw, decoder)

def readNext (decoder : Decoder) : Except DecodeError M × Decoder :=
  match decoder.more with
  | (false, decoder) =>
      let (error, decoder) := readEnd scanner decoder
      (.error error, decoder)
  | (true, decoder) => unmarshalNext scanner json decoder

def unknownField : GoString := "unknown field".toList

/-- The loop of a load, for a number of reads: the messages sent, and what it returns if it does. -/
def loadLoop : Nat → Decoder → List M × Option (Except DecodeError Unit)
  | 0, _ => ([], none)
  | fuel + 1, decoder =>
      match readNext scanner json decoder with
      | (.error .eof, _) => ([], some (.ok ()))
      | (.error (.failed text), decoder) =>
          if unknownField <:+: text then loadLoop fuel decoder
          else ([], some (.error (.failed text)))
      | (.ok message, decoder) =>
          let (messages, outcome) := loadLoop fuel decoder
          (message :: messages, outcome)

def loadFile (fuel : Nat) (text : GoString) : List M × Option (Except DecodeError Unit) :=
  match newReader scanner text with
  | .error error => ([], some (.error error))
  | .ok reader => loadLoop scanner json fuel reader.decoder

end Reader

def loadObjects (scanner : Scanner) (json : MessageJson Object) (fuel : Nat) (text : GoString) :=
  loadFile scanner json fuel text

def loadRelations (scanner : Scanner) (json : MessageJson Relation) (fuel : Nat) (text : GoString) :=
  loadFile scanner json fuel text

section Contents

variable {M : Type} (json : MessageJson M)

def elements : Bool → List M → GoString
  | _, [] => []
  | first, message :: rest =>
      (if first then [','] else []) ++ ((json.marshal message).toOption.getD [] ++ elements true rest)

def closing : GoString := "]\n".toList ++ "\x7d\n".toList

theorem write_text (writer : JsWriter) (message : M) : (writer.write json message).2 =
      ⟨writer.text ++ (if writer.first then [','] else []) ++ (json.marshal message).toOption.getD [],
        true⟩ := by
  unfold JsWriter.write
  cases writer.first <;> cases json.marshal message <;> simp [Except.toOption]

def objectsOf : List ExportMessage → List Object
  | [] => []
  | .object message :: rest => message :: objectsOf rest
  | .relation _ :: rest | .stats _ :: rest => objectsOf rest

def relationsOf : List ExportMessage → List Relation
  | [] => []
  | .relation message :: rest => message :: relationsOf rest
  | .object _ :: rest | .stats _ :: rest => relationsOf rest

variable (objectJson : MessageJson Object) (relationJson : MessageJson Relation)

theorem writeMessages_eq (ending : Except Err Unit) (messages : List ExportMessage)
    (objects relations : JsWriter) (printed : List Err) :
    ∃ errors, writeMessages objectJson relationJson ending objects relations printed messages =
      ⟨ending, objects.text ++ elements objectJson objects.first (objectsOf messages) ++ closing,
        relations.text ++ elements relationJson relations.first (relationsOf messages) ++ closing, errors⟩ := by
  induction messages generalizing objects relations printed with
  | nil =>
      refine ⟨printed.reverse, ?_⟩
      simp [writeMessages, elements, objectsOf, relationsOf, JsWriter.close, closing]
  | cons message rest ih =>
      cases message with
      | object message =>
          obtain ⟨errors, same⟩ := ih (objects.write objectJson message).2 relations
            (printError (objects.write objectJson message).1 printed)
          refine ⟨errors, same.trans ?_⟩
          simp [write_text, elements, objectsOf, relationsOf]
      | relation message =>
          obtain ⟨errors, same⟩ := ih objects (relations.write relationJson message).2
            (printError (relations.write relationJson message).1 printed)
          refine ⟨errors, same.trans ?_⟩
          simp [write_text, elements, objectsOf, relationsOf]
      | stats stats => exact ih objects relations printed

end Contents

section Laws

variable (scanner : Scanner)

/-- The keys of the files are values, and no value starts with a comma or a closing bracket. -/
structure ScannerLawful : Prop where
  key : ∀ key ∈ [objectsStr, relationsStr], ∀ rest,
    scanner.readValue (quoted key ++ rest) = .ok (quoted key, rest) ∧
      scanner.unmarshalString (quoted key) = .ok key
  noValue : ∀ char ∈ [',', ']'], ∀ rest,
    ∃ text, scanner.readValue (char :: rest) = .error text ∧ ¬ unknownField <:+: text

/-- A message is marshalled as an object, which ends in itself and is read back. -/
structure MessageLawful {M : Type} (json : MessageJson M) : Prop where
  opens : ∀ {message text}, json.marshal message = .ok text → ∃ rest, text = '\x7b' :: rest
  value : ∀ {message text}, json.marshal message = .ok text →
    ∀ rest, scanner.readValue (text ++ rest) = .ok (text, rest)
  reads : ∀ {message text}, json.marshal message = .ok text → json.unmarshal text = .ok message

end Laws

section Steps

variable {scanner : Scanner} {M : Type} {json : MessageJson M}

def inArray (state : TokenState) (rest : GoString) : Decoder :=
  { rest, state, stack := [.objectValue, .topValue] }

theorem token_key (lawful : ScannerLawful scanner)
    (known : key ∈ [objectsStr, relationsStr]) (rest : GoString) :
    Decoder.token scanner ⟨'\n' :: (quoted key ++ rest), .objectStart, [.topValue], none⟩ =
      (.ok (.string key), ⟨rest, .objectColon, [.topValue], none⟩) := by
  obtain ⟨value, text⟩ := lawful.key key known rest
  have step : Decoder.token scanner ⟨'\n' :: (quoted key ++ rest), .objectStart, [.topValue], none⟩ =
      Decoder.keyToken scanner .objectStart
        (Decoder.scanValue scanner ⟨quoted key ++ rest, .topValue, [.topValue], none⟩) := rfl
  rw [step]
  simp only [Decoder.scanValue, value, TokenState.valueEnd, Decoder.keyToken, text]

theorem newReader_written (lawful : ScannerLawful scanner)
    (known : key ∈ [objectsStr, relationsStr]) (rest : GoString) :
    newReader scanner ((newWriter key).text ++ rest) = .ok ⟨inArray .arrayStart ('\n' :: rest), key⟩ := by
  have shape : (newWriter key).text ++ rest =
      '\x7b' :: '\n' :: (quoted key ++ (":\n[\n".toList ++ rest)) := by simp [newWriter]
  have opened (after : GoString) : Decoder.token scanner { rest := '\x7b' :: after } =
      (.ok (.delim '\x7b'), ⟨after, .objectStart, [.topValue], none⟩) := rfl
  have entered : Decoder.token scanner ⟨":\n[\n".toList ++ rest, .objectColon, [.topValue], none⟩ =
      (.ok (.delim '['), inArray .arrayStart ('\n' :: rest)) := rfl
  simp only [newReader, shape, opened, token_key lawful known, entered, Token.isDelim, if_true]

theorem decode_first (text : GoString) : Decoder.decode scanner (inArray .arrayStart text) =
      (inArray .arrayStart text).scanValue scanner := rfl

theorem decode_next (text : GoString) : Decoder.decode scanner (inArray .arrayComma (',' :: text)) =
      (inArray .arrayValue text).scanValue scanner := rfl

theorem scanValue_ok {raw rest : GoString} (value : scanner.readValue text = .ok (raw, rest))
    (state : TokenState) (ends : state.valueEnd = .arrayComma) :
    (inArray state text).scanValue scanner = (.ok raw, inArray .arrayComma rest) := by
  simp only [Decoder.scanValue, inArray, value, ends]

theorem scanValue_error {error : GoString} (failed : scanner.readValue text = .error error)
    (state : TokenState) : ((inArray state text).scanValue scanner).1 = .error (.failed error) := by
  simp only [Decoder.scanValue, inArray, failed]

theorem unmarshalNext_error {decoder : Decoder} {error : DecodeError}
    (failed : (decoder.decode scanner).1 = .error error) :
    (unmarshalNext scanner json decoder).1 = .error error := by
  cases decoded : decoder.decode scanner with
  | mk result after =>
      rw [decoded] at failed
      cases failed
      simp only [unmarshalNext, decoded]

section Elements

variable (lawful : MessageLawful scanner json) {message : M} {text : GoString}
  (written : json.marshal message = .ok text) (rest : GoString)

include lawful written

theorem readNext_first : readNext scanner json (inArray .arrayStart ('\n' :: (text ++ rest))) =
      (.ok message, inArray .arrayComma rest) := by
  have value := lawful.value written rest
  have read := lawful.reads written
  obtain ⟨tail, rfl⟩ := lawful.opens written
  change unmarshalNext scanner json (inArray .arrayStart ('\x7b' :: tail ++ rest)) = _
  simp only [unmarshalNext, decode_first, scanValue_ok value .arrayStart rfl, read]

theorem readNext_next : readNext scanner json (inArray .arrayComma (',' :: (text ++ rest))) =
      (.ok message, inArray .arrayComma rest) := by
  change unmarshalNext scanner json (inArray .arrayComma (',' :: (text ++ rest))) = _
  simp only [unmarshalNext, decode_next, scanValue_ok (lawful.value written rest) .arrayValue rfl,
    lawful.reads written]

end Elements

section Gaps

variable (lawful : ScannerLawful scanner) (json) (rest : GoString)

include lawful

theorem readNext_gap_first :
    ∃ text, (readNext scanner json (inArray .arrayStart ('\n' :: ',' :: rest))).1 = .error (.failed text) ∧
      ¬ unknownField <:+: text := by
  obtain ⟨text, failed, other⟩ := lawful.noValue ',' (by simp) rest
  exact ⟨text, unmarshalNext_error (scanValue_error failed .arrayStart), other⟩

theorem readNext_gap {char : Char} (separates : char ∈ [',', ']']) :
    ∃ text, (readNext scanner json (inArray .arrayComma (',' :: char :: rest))).1 = .error (.failed text) ∧
      ¬ unknownField <:+: text := by
  obtain ⟨text, failed, other⟩ := lawful.noValue char separates rest
  exact ⟨text, unmarshalNext_error (scanValue_error failed .arrayValue), other⟩

end Gaps

theorem readNext_end_first :
    (readNext scanner json (inArray .arrayStart ('\n' :: closing))).1 = .error .eof := rfl

theorem readNext_end : (readNext scanner json (inArray .arrayComma closing)).1 = .error .eof := rfl

end Steps

section Loading

variable {scanner : Scanner} {M : Type} {json : MessageJson M} {decoder : Decoder} {message : M}

theorem loadLoop_ends (ended : (readNext scanner json decoder).1 = .error .eof) (fuel : Nat) :
    loadLoop scanner json (fuel + 1) decoder = ([], some (.ok ())) := by
  cases read : readNext scanner json decoder with
  | mk result next =>
      rw [read] at ended
      cases ended
      simp only [loadLoop, read]

theorem loadLoop_fails (failed : (readNext scanner json decoder).1 = .error (.failed text))
    (other : ¬ unknownField <:+: text) (fuel : Nat) :
    loadLoop scanner json (fuel + 1) decoder = ([], some (.error (.failed text))) := by
  cases read : readNext scanner json decoder with
  | mk result next =>
      rw [read] at failed
      cases failed
      simp only [loadLoop, read, if_neg other]

theorem loadLoop_sends {next : Decoder}
    (read : readNext scanner json decoder = (.ok message, next)) (fuel : Nat) :
    loadLoop scanner json (fuel + 1) decoder =
      (message :: (loadLoop scanner json fuel next).1, (loadLoop scanner json fuel next).2) := by
  simp only [loadLoop, read]

def Marshals (json : MessageJson M) (message : M) : Prop := ∃ text, json.marshal message = .ok text

theorem elements_ok (written : json.marshal message = .ok text) (first : Bool) (rest : List M) :
    elements json first (message :: rest) = (if first then [','] else []) ++ (text ++ elements json true rest) := by
  rw [elements, written]
  rfl

theorem elements_gap (failed : ¬ Marshals json message) (first : Bool) (rest : List M) :
    elements json first (message :: rest) = (if first then [','] else []) ++ elements json true rest := by
  cases written : json.marshal message with
  | error error =>
      rw [elements, written]
      rfl
  | ok text => exact absurd ⟨text, written⟩ failed

theorem elements_separate (json : MessageJson M) (messages : List M) :
    ∃ char ∈ [',', ']'], ∃ rest, elements json true messages ++ closing = char :: rest := by
  cases messages with
  | nil => exact ⟨']', by simp, _, rfl⟩
  | cons message rest => exact ⟨',', by simp, _, rfl⟩

variable (scans : ScannerLawful scanner) (lawful : MessageLawful scanner json) {messages : List M}
  {fuel : Nat}

include lawful

theorem loadLoop_complete (all : ∀ message ∈ messages, Marshals json message)
    (enough : messages.length < fuel) :
    loadLoop scanner json fuel (inArray .arrayComma (elements json true messages ++ closing)) =
      (messages, some (.ok ())) := by
  induction messages generalizing fuel with
  | nil =>
      obtain ⟨fuel, rfl⟩ := Nat.exists_eq_succ_of_ne_zero (Nat.ne_of_gt enough)
      exact loadLoop_ends readNext_end fuel
  | cons message rest ih =>
      obtain ⟨fuel, rfl⟩ := Nat.exists_eq_succ_of_ne_zero (Nat.ne_of_gt (Nat.zero_lt_of_lt enough))
      obtain ⟨⟨text, written⟩, later⟩ := List.forall_mem_cons.mp all
      have shape : elements json true (message :: rest) ++ closing =
          ',' :: (text ++ (elements json true rest ++ closing)) := by simp [elements_ok written]
      rw [shape, loadLoop_sends (readNext_next lawful written _), ih later (Nat.lt_of_succ_lt_succ enough)]

include scans

theorem loadLoop_incomplete (gap : ∃ message ∈ messages, ¬ Marshals json message)
    (enough : messages.length < fuel) : ∃ before error,
      loadLoop scanner json fuel (inArray .arrayComma (elements json true messages ++ closing)) =
        (before, some (.error error)) := by
  induction messages generalizing fuel with
  | nil => simp at gap
  | cons message rest ih =>
      obtain ⟨fuel, rfl⟩ := Nat.exists_eq_succ_of_ne_zero (Nat.ne_of_gt (Nat.zero_lt_of_lt enough))
      by_cases marshals : Marshals json message
      · obtain ⟨text, written⟩ := marshals
        have later : ∃ message ∈ rest, ¬ Marshals json message := by
          simpa [show Marshals json message from ⟨text, written⟩] using gap
        obtain ⟨before, error, failed⟩ := ih later (Nat.lt_of_succ_lt_succ enough)
        have shape : elements json true (message :: rest) ++ closing =
            ',' :: (text ++ (elements json true rest ++ closing)) := by simp [elements_ok written]
        rw [shape, loadLoop_sends (readNext_next lawful written _), failed]
        exact ⟨message :: before, error, rfl⟩
      · obtain ⟨char, separates, more, next⟩ := elements_separate json rest
        obtain ⟨text, failed, other⟩ := readNext_gap json scans more separates
        have shape : elements json true (message :: rest) ++ closing = ',' :: char :: more := by
          rw [elements_gap marshals, List.append_assoc, next]
          rfl
        rw [shape]
        exact ⟨[], .failed text, loadLoop_fails failed other fuel⟩

theorem loadLoop_written_iff (enough : messages.length < fuel) :
    loadLoop scanner json fuel (inArray .arrayComma (elements json true messages ++ closing)) =
      (messages, some (.ok ())) ↔ ∀ message ∈ messages, Marshals json message := by
  by_cases all : ∀ message ∈ messages, Marshals json message
  · exact iff_of_true (loadLoop_complete lawful all enough) all
  · obtain ⟨before, error, failed⟩ := loadLoop_incomplete scans lawful (by simpa using all) enough
    refine iff_of_false (fun same => ?_) all
    rw [failed] at same
    simp at same

omit lawful in
theorem loadLoop_first_missing (missing : ¬ Marshals json message) (rest : List M) (fuel : Nat) :
    loadLoop scanner json (fuel + 1)
      (inArray .arrayStart ('\n' :: (elements json false (message :: rest) ++ closing))) ≠
        (message :: rest, some (.ok ())) := by
  rw [elements_gap missing]
  cases rest with
  | nil =>
      change loadLoop scanner json (fuel + 1) (inArray .arrayStart ('\n' :: closing)) ≠ _
      rw [loadLoop_ends readNext_end_first]
      simp
  | cons next rest =>
      obtain ⟨text, failed, other⟩ := readNext_gap_first json scans
        ((json.marshal next).toOption.getD [] ++ elements json true rest ++ closing)
      change loadLoop scanner json (fuel + 1) (inArray .arrayStart ('\n' :: ',' ::
        ((json.marshal next).toOption.getD [] ++ elements json true rest ++ closing))) ≠ _
      rw [loadLoop_fails failed other]
      simp

/-- A file is loaded in full exactly if each message could be marshalled. -/
theorem loadFile_written_iff (known : key ∈ [objectsStr, relationsStr]) (enough : messages.length < fuel) :
    loadFile scanner json fuel ((newWriter key).text ++ elements json false messages ++ closing) =
      (messages, some (.ok ())) ↔ ∀ message ∈ messages, Marshals json message := by
  have opened : loadFile scanner json fuel
      ((newWriter key).text ++ elements json false messages ++ closing) =
        loadLoop scanner json fuel (inArray .arrayStart ('\n' :: (elements json false messages ++ closing))) := by
    rw [loadFile, List.append_assoc, newReader_written scans known]
  rw [opened]
  obtain ⟨fuel, rfl⟩ := Nat.exists_eq_succ_of_ne_zero (Nat.ne_of_gt (Nat.zero_lt_of_lt enough))
  cases messages with
  | nil => simpa [elements] using loadLoop_ends readNext_end_first fuel
  | cons message rest =>
      by_cases marshals : Marshals json message
      · obtain ⟨text, written⟩ := marshals
        have shape : elements json false (message :: rest) ++ closing =
            text ++ (elements json true rest ++ closing) := by simp [elements_ok written]
        have later := loadLoop_written_iff scans lawful (Nat.lt_of_succ_lt_succ enough)
        have here : Marshals json message := ⟨text, written⟩
        rw [shape, loadLoop_sends (readNext_first lawful written _), List.forall_mem_cons, ← later]
        simp [Prod.ext_iff, here]
      · exact iff_of_false (loadLoop_first_missing scans marshals rest fuel)
          fun all => marshals (all message List.mem_cons_self)

end Loading

section Backups

variable {scanner : Scanner} {objectJson : MessageJson Object} {relationJson : MessageJson Relation}

theorem length_parts (messages : List ExportMessage) :
    (objectsOf messages).length + (relationsOf messages).length ≤ messages.length := by
  induction messages with
  | nil => exact le_rfl
  | cons message rest ih => cases message <;> simp [objectsOf, relationsOf] <;> omega

/-- Both commands succeed on any export that ends well. Its objects and relations can be restored from
the files, all of them and in order, exactly if each of them could be marshalled. -/
theorem backup_restored_iff (scans : ScannerLawful scanner) (objects : MessageLawful scanner objectJson)
    (relations : MessageLawful scanner relationJson) (messages : List ExportMessage) {fuel : Nat}
    (enough : messages.length < fuel) :
    let written := createBackupFiles objectJson relationJson (.ok ()) messages
    written = clientExport objectJson relationJson (.ok ()) messages ∧
      written.outcome = .ok () ∧
      (loadObjects scanner objectJson fuel written.objects = (objectsOf messages, some (.ok ())) ∧
          loadRelations scanner relationJson fuel written.relations = (relationsOf messages, some (.ok ())) ↔
        (∀ object ∈ objectsOf messages, Marshals objectJson object) ∧
          ∀ relation ∈ relationsOf messages, Marshals relationJson relation) := by
  intro written
  obtain ⟨errors, files⟩ := writeMessages_eq objectJson relationJson (.ok ()) messages
    (newWriter objectsStr) (newWriter relationsStr) []
  have files : written = _ := files
  refine ⟨rfl, by rw [files], ?_⟩
  rw [files]
  have parts := length_parts messages
  exact and_congr (loadFile_written_iff scans objects (by simp) (by omega))
    (loadFile_written_iff scans relations (by simp) (by omega))

def wordScanner : Scanner where
  readValue
    | '\x7b' :: rest =>
        match cut '\x7d' rest with
        | (word, after, true) => .ok ('\x7b' :: word ++ ['\x7d'], after)
        | _ => .error "unexpected end of JSON input".toList
    | '"' :: rest =>
        match cut '"' rest with
        | (word, after, true) => .ok (quoted word, after)
        | _ => .error "unexpected end of JSON input".toList
    | _ => .error "invalid character looking for beginning of value".toList
  unmarshalString raw := .ok ((raw.drop 1).dropLast)
  tokenError _ char := "invalid character ".toList ++ [char]

def wordText (word : GoString) : Except Err GoString :=
  if '\x7d' ∈ word then .error (.engine "word") else .ok ('\x7b' :: word ++ ['\x7d'])

def titleOf (id : GoString) : Object := { type := "doc".toList, id }

def viewerOf (id : GoString) : Relation :=
  { objectType := "doc".toList, objectId := id, relation := "viewer".toList,
    subjectType := "user".toList, subjectId := "u1".toList, subjectRelation := [] }

def documentWords : MessageJson Object where
  marshal object :=
    if object.type = "doc".toList ∧ object.displayName = [] ∧ object.properties.isNone ∧
        object.createdAt = none ∧ object.updatedAt = none ∧ object.etag = [] then wordText object.id
    else .error (.engine "document")
  unmarshal text := .ok (titleOf (text.drop 1).dropLast)

def viewerWords : MessageJson Relation where
  marshal relation :=
    if relation = viewerOf relation.objectId then wordText relation.objectId
    else .error (.engine "viewer")
  unmarshal text := .ok (viewerOf (text.drop 1).dropLast)

theorem wordScanner_lawful : ScannerLawful wordScanner where
  key key known rest := by
    have free : '"' ∉ key := by
      rcases List.mem_pair.mp known with rfl | rfl <;> decide
    have value : wordScanner.readValue (quoted key ++ rest) = .ok (quoted key, rest) := by
      have cuts := cut_append rest free
      simp only [quoted, wordScanner, List.cons_append, List.append_assoc, List.nil_append, cuts]
    exact ⟨value, by simp [wordScanner, quoted]⟩
  noValue char separates rest := by
    refine ⟨"invalid character looking for beginning of value".toList, ?_, by decide⟩
    rcases List.mem_pair.mp separates with rfl | rfl <;> rfl

theorem wordText_lawful {word : GoString} (written : wordText word = .ok text) :
    (∃ rest, text = '\x7b' :: rest) ∧
      (∀ rest, wordScanner.readValue (text ++ rest) = .ok (text, rest)) ∧ (text.drop 1).dropLast = word := by
  unfold wordText at written
  split at written
  · cases written
  · rename_i free
    cases written
    refine ⟨⟨_, rfl⟩, fun rest => ?_, by simp⟩
    have cuts := cut_append rest free
    simp only [wordScanner, List.cons_append, List.append_assoc, List.nil_append, cuts]

theorem documentWords_written {object : Object} (written : documentWords.marshal object = .ok text) :
    object = titleOf object.id ∧ wordText object.id = .ok text := by
  simp only [documentWords] at written
  split at written
  · rename_i plain
    obtain ⟨type, id, displayName, properties, createdAt, updatedAt, etag⟩ := object
    obtain ⟨rfl, rfl, absent, rfl, rfl, rfl⟩ := plain
    cases Option.isNone_iff_eq_none.mp absent
    exact ⟨rfl, written⟩
  · cases written

theorem viewerWords_written {relation : Relation} (written : viewerWords.marshal relation = .ok text) :
    relation = viewerOf relation.objectId ∧ wordText relation.objectId = .ok text := by
  simp only [viewerWords] at written
  split at written
  · rename_i plain
    exact ⟨plain, written⟩
  · cases written

theorem messageLawful_of_words {M : Type} {json : MessageJson M} {make : GoString → M} {word : M → GoString}
    (reads : ∀ text, json.unmarshal text = .ok (make (text.drop 1).dropLast))
    (writes : ∀ {message text}, json.marshal message = .ok text →
      message = make (word message) ∧ wordText (word message) = .ok text) : MessageLawful wordScanner json where
  opens written := (wordText_lawful (writes written).2).1
  value written := (wordText_lawful (writes written).2).2.1
  reads {message text} written := by
    obtain ⟨same, named⟩ := writes written
    rw [reads, (wordText_lawful named).2.2, ← same]

theorem documentWords_lawful : MessageLawful wordScanner documentWords :=
  messageLawful_of_words (fun _ => rfl) documentWords_written

theorem viewerWords_lawful : MessageLawful wordScanner viewerWords :=
  messageLawful_of_words (fun _ => rfl) viewerWords_written

theorem documents_restored :
    let written := createBackupFiles documentWords viewerWords (.ok ())
      [.object (titleOf "d1".toList), .relation (viewerOf "d1".toList), .object (titleOf "d2".toList)]
    written.outcome = .ok () ∧
      loadObjects wordScanner documentWords 4 written.objects =
        ([titleOf "d1".toList, titleOf "d2".toList], some (.ok ())) ∧
      loadRelations wordScanner viewerWords 4 written.relations =
        ([viewerOf "d1".toList], some (.ok ())) := by
  obtain ⟨_, ok, restored⟩ := backup_restored_iff wordScanner_lawful documentWords_lawful
    viewerWords_lawful
    [.object (titleOf "d1".toList), .relation (viewerOf "d1".toList), .object (titleOf "d2".toList)]
    (show 3 < 4 by decide)
  refine ⟨ok, restored.mpr ⟨?_, ?_⟩⟩
  · simp only [objectsOf, List.forall_mem_cons]
    exact ⟨⟨_, rfl⟩, ⟨_, rfl⟩, by simp⟩
  · simp only [relationsOf, List.forall_mem_cons]
    exact ⟨⟨_, rfl⟩, by simp⟩

def unprintable : Object :=
  { titleOf "d2".toList with properties := some [("size".toList, .number 0x7ff8000000000000)] }

/-- The command succeeds although a document could not be marshalled. Alone in its file the document
is lost without an error; after another one the file cannot be read to its end. -/
theorem unprintable_not_restored :
    let written messages := createBackupFiles documentWords viewerWords (.ok ()) messages
    let loaded messages := loadObjects wordScanner documentWords 4 (written messages).objects
    ((written [.object unprintable]).outcome = .ok () ∧
        (loaded [.object unprintable]).1.map Object.id = [] ∧
        (loaded [.object unprintable]).2 = some (.ok ())) ∧
      (written [.object (titleOf "d1".toList), .object unprintable]).outcome = .ok () ∧
        (loaded [.object (titleOf "d1".toList), .object unprintable]).1.map Object.id = ["d1".toList] ∧
        (loaded [.object (titleOf "d1".toList), .object unprintable]).2 =
          some (.error (.failed "invalid character looking for beginning of value".toList)) := by
  decide +kernel

end Backups

end Eamerald.Command
