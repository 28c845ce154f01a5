/-
Corpus/Extractor/FileText.lean

The text of a single file: plain text is read, an image is named, and everything else is
left to the external extractor.
-/
import Corpus.Extractor.Program
import Corpus.Json.Reader
import Corpus.Settings.Basic
import Corpus.Text.Blank

namespace Corpus

/-- Why there is no text. -/
inductive ExtractError where
  /-- The extractor could not be started, for the reason given. -/
  | spawn (command reason : String)
  /-- The extractor took longer than it may. -/
  | timeout (limit : Span)
  /-- The extractor failed; the code is missing if it did not exit by itself. -/
  | exit (code : Option Int) (diagnostics : String)
  /-- The extractor's output is no answer. -/
  | unreadable
  /-- The extractor found no text, for the reason given. -/
  | unsuccessful (reason : String)
  | empty
  | io (fault : Fault)
  deriving DecidableEq, Repr

/-- What is said of a missing text; what is wrong inside an unreadable output is left out. -/
def ExtractError.message : ExtractError → String
  | .spawn command reason => "Could not run extractor \x60" ++ command ++ "\x60: " ++ reason
  | .timeout limit => "Extractor timed out after " ++ limit.text
  | .exit code diagnostics =>
    "Extractor exited with code " ++
      (match code with
        | some n => "Some(" ++ toString n ++ ")"
        | none => "None") ++ ": " ++ diagnostics
  | .unreadable => "Unreadable extractor output: "
  | .unsuccessful reason => "Extraction failed: " ++ reason
  | .empty => "No text extracted"
  | .io fault => "IO error: " ++ fault.text

/-- The extractor's answer for one file. -/
structure FileAnswer where
  success : Bool := false
  text : String := ""
  error : Option String := none
  deriving DecidableEq, Repr

/-- Reads an answer: an object whose members may be missing, or an array of their values. -/
def FileAnswer.ofJson? (v : Json.Value) : Option FileAnswer :=
  match v with
  | .array items =>
    if items.length ≤ 3 then do
      let success ← Json.position? items 0 false (·.asBool?)
      let text ← Json.position? items 1 "" (·.asText?)
      let error ← Json.position? items 2 none (Json.Value.orNull? (·.asText?))
      some { success, text, error }
    else none
  | v => do
    let members ← v.named?
    let success ← Json.optional? members "success" false (·.asBool?)
    let text ← Json.optional? members "text" "" (·.asText?)
    let error ← Json.optional? members "error" none (Json.Value.orNull? (·.asText?))
    some { success, text, error }

/-- The extensions of files that are read as they are. -/
def plainTypes : List String := ["txt", "md"]

/-- The extensions of images. -/
def imageTypes : List String := ["jpg", "jpeg", "png", "gif", "bmp", "webp", "tif", "tiff"]

/-- How many characters of the extractor's diagnostics are quoted. -/
def ExtractError.quoteLimit : Nat := 500

/-- What texts are extracted with. -/
structure TextExtractor where
  settings : ExtractorSettings
  programs : Programs

namespace TextExtractor

/-- How long the extractor may take for one file. -/
def limit (x : TextExtractor) : Span := .ofSeconds (max x.settings.singleFileTimeoutSecs.toNat 1)

/-- The text in the extractor's answer. -/
def answerText (output : Bytes) : Except ExtractError String :=
  match (Json.read? output).bind FileAnswer.ofJson? with
  | none => .error .unreadable
  | some answer =>
    if answer.success then .ok answer.text
    else .error (.unsuccessful (answer.error.getD "unknown error"))

/-- The start of the trimmed diagnostics. -/
def quote (diagnostics : Bytes) : String :=
  String.ofList
    ((Text.trimChars (Text.decodeLossy diagnostics).toList).take ExtractError.quoteLimit)

/-- What the external extractor says of a file. -/
def run (x : TextExtractor) (d : Disk) (path : Path) : Except ExtractError String :=
  let args := x.settings.args.map Text.encode ++ [path.bytes, Text.encode "--text"]
  match x.programs.launch d x.settings.command args with
  | .error fault => .error (.spawn x.settings.command fault.text)
  | .ok execution =>
    match execution.ending with
    | .stuck => .error (.timeout x.limit)
    | .signalled => .error (.exit none (quote execution.diagnostics))
    | .exited code =>
      if code = 0 then answerText execution.output
      else .error (.exit (some code) (quote execution.diagnostics))

/-- The text of a file, whether blank or not. -/
def rawText (x : TextExtractor) (d : Disk) (path : Path) (extension : String) :
    Except ExtractError String :=
  if plainTypes.contains extension then
    match d.read path with
    | .ok content => .ok (Text.decodeLossy content)
    | .error fault => .error (.io fault)
  else if imageTypes.contains extension then
    .ok ("Image file: " ++ Text.decodeLossy (path.fileName?.getD []))
  else x.run d path

/-- The text of a file with the given extension in lower case. -/
def extract (x : TextExtractor) (d : Disk) (path : Path) (extension : String) :
    Except ExtractError String :=
  match x.rawText d path extension with
  | .ok text => if Text.isBlankText text then .error .empty else .ok text
  | .error e => .error e

end TextExtractor

end Corpus
