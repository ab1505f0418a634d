import EnergyAgent.Lib.Lines

/-!
# Chunking of documents

`retrieval/ingestion/chunking.py`: a block is cut into sections at its headings, blank lines and
marked lines, a section of body text that is too long into chunks, and the chunks of all blocks are
numbered through. Texts are lists of code points. The decimal digits of the Unicode version, SHA-256
and the tokenizer are parameters.
-/

namespace EnergyAgent.Ingestion

open EnergyAgent.Lib EnergyAgent.Lib.Text

/-- `ParsedBlock` -/
structure ParsedBlock where
  text : List Char
  pageNo : Option Nat := none
  sectionType : String := "正文"
  deriving DecidableEq

/-- A section: its title, its text and its type. -/
structure TextSection where
  title : List Char
  text : List Char
  sectionType : String
  deriving DecidableEq

structure DocumentChunk where
  chunkId : String
  content : List Char
  contentHash : String
  chunkOrder : Nat
  chapterTitle : List Char
  sectionType : String
  pageNo : Option Nat
  keywords : List String
  deriving DecidableEq

def chunkingVersion : String := "chunking.v1.0"

/-- What the chunker takes from its surroundings. -/
structure ChunkRuntime where
  /-- `\d` -/
  decimal : Char → Bool
  /-- The hexadecimal digest of a text in UTF-8. -/
  sha256 : List Char → String
  tokenize : List Char → List String

/-! ## The kinds of lines -/

section lines

variable (decimal : Char → Bool)

/-- `pattern in text` -/
def occursIn (pattern text : List Char) : Bool := text.tails.any (pattern.isPrefixOf ·)

/-- `#{1,6}\s+` -/
def hashHeading (line : List Char) : Bool :=
  let marks := line.takeWhile (· == '#')
  1 ≤ marks.length && marks.length ≤ 6 && ((line.drop marks.length).head?.any isSpace)

/-- `[一二三四五六七八九十\d]` -/
def chapterNumeral (c : Char) : Bool := "一二三四五六七八九十".toList.contains c || decimal c

/-- `第[一二三四五六七八九十\d]+[章节]\s*` -/
def chapterHeading : List Char → Bool
  | '第' :: rest =>
      let numerals := rest.takeWhile (chapterNumeral decimal)
      numerals != [] && (rest.drop numerals.length).head?.any fun c => c == '章' || c == '节'
  | _ => false

/-- `\d+(?:\.\d+)+\s+\S`, read on: a digit comes right before, a point has come. -/
def numberedHeading (digit pointed : Bool) : List Char → Bool
  | [] => false
  | c :: rest =>
      if decimal c then numberedHeading true pointed rest
      else if digit && c == '.' then numberedHeading false true rest
      else digit && pointed && isSpace c && rest.any fun next => !isSpace next

/-- The line looks like a heading. -/
def isHeading (line : List Char) : Bool :=
  hashHeading line || chapterHeading decimal line || numberedHeading decimal false false line

/-- A heading that is taken as the title of what follows. -/
def isTitle (line : List Char) : Bool :=
  isHeading decimal line && (line.head? == some '#' || line.length ≤ 80)

/-- `stripped.lstrip("# ").strip()` -/
def headingText (line : List Char) : List Char :=
  trim isSpace (line.dropWhile fun c => c == '#' || c == ' ')

/-- `告警.*(?:定义|说明|含义)` in a line. -/
def alarmDefinition (line : List Char) : Bool :=
  line.tails.any fun tail => "告警".toList.isPrefixOf tail &&
    ["定义", "说明", "含义"].any fun word => occursIn word.toList (tail.drop 2)

/-- `^\d+[.)、]` -/
def numberedStep (line : List Char) : Bool :=
  let digits := line.takeWhile decimal
  digits != [] && (line.drop digits.length).head?.any fun c => c == '.' || c == ')' || c == '、'

/-- The type of the section that a line belongs to. -/
def lineType (line : List Char) : String :=
  if ["注意", "警告", "危险"].any fun word => occursIn word.toList line then "注意事项"
  else if alarmDefinition line then "告警定义"
  else if numberedStep decimal line then "维护步骤"
  else "正文"

end lines

/-! ## `_sections` -/

/-- The local variables of the loop. -/
structure Scan where
  output : List TextSection
  title : List Char
  buffer : List (List Char)

/-- What is buffered becomes a section of body text. -/
def Scan.flush (scan : Scan) : Scan :=
  if scan.buffer = [] then scan
  else { scan with
    output := scan.output ++ [⟨scan.title, List.intercalate ['\n'] scan.buffer, "正文"⟩]
    buffer := [] }

section sections

variable (decimal : Char → Bool)

/-- A line that is not blank, stripped. -/
def Scan.readText (scan : Scan) (line : List Char) : Scan :=
  let flushed := if isHeading decimal line then scan.flush else scan
  if isTitle decimal line then { flushed with title := headingText line }
  else if lineType decimal line = "正文" then { flushed with buffer := flushed.buffer ++ [line] }
  else { flushed.flush with
    output := flushed.flush.output ++ [⟨flushed.title, line, lineType decimal line⟩] }

def Scan.read (scan : Scan) (line : List Char) : Scan :=
  let stripped := trim isSpace line
  if stripped = [] then scan.flush else scan.readText decimal stripped

def sections (block : ParsedBlock) : List TextSection :=
  if block.sectionType = "表格" then [⟨"表格".toList, block.text, "表格"⟩]
  else ((splitlines block.text).foldl (Scan.read decimal) ⟨[], "正文".toList, []⟩).flush.output

end sections

/-! ## `_split_text` -/

/-- `[。！？.!?；;]` -/
def endsSentence (c : Char) : Bool := "。！？.!?；;".toList.contains c

/-- The text, cut behind each character that ends a sentence. -/
def sentences : List Char → List (List Char)
  | [] => []
  | c :: rest =>
      if endsSentence c then [c] :: sentences rest
      else match sentences rest with
        | [] => [[c]]
        | first :: others => (c :: first) :: others

/-- The pieces that a text is put together from: its sentences, or slices of the only one. -/
def pieces (target : Nat) (text : List Char) : List (List Char) :=
  if (sentences text).length = 1 then slices target text else sentences text

/-- One round of the loop over the pieces, with the chunks so far and the current one. -/
def addPiece (target overlap : Nat) (state : List (List Char) × List Char) (piece : List Char) :
    List (List Char) × List Char :=
  if state.2 ≠ [] ∧ target < state.2.length + piece.length then
    (state.1 ++ [trim isSpace state.2], lastOf overlap state.2 ++ piece)
  else (state.1, state.2 ++ piece)

def splitText (text : List Char) (target overlap : Nat) : List (List Char) :=
  if text.length ≤ target then if trim isSpace text = [] then [] else [text]
  else
    let (chunks, current) := (pieces target text).foldl (addPiece target overlap) ([], [])
    if trim isSpace current = [] then chunks else chunks ++ [trim isSpace current]

/-! ## `chunk_blocks` -/

section chunks

variable (rt : ChunkRuntime) (docId version : List Char) (target overlap : Nat)

def documentChunk (pageNo : Option Nat) (part : TextSection) (order : Nat) (content : List Char) :
    DocumentChunk :=
  let digest := rt.sha256 content
  let stable := rt.sha256 (List.intercalate ['|'] [chunkingVersion.toList, docId, version,
    (toString order).toList, digest.toList])
  { chunkId := "chunk_" ++ String.ofList (stable.toList.take 24)
    content := content
    contentHash := digest
    chunkOrder := order
    chapterTitle := part.title
    sectionType := part.sectionType
    pageNo := pageNo
    keywords := (rt.tokenize (part.title ++ ' ' :: content)).eraseDups.take 30 }

/-- The contents that a section is cut into. -/
def contents (part : TextSection) : List (List Char) :=
  let limit := if part.sectionType = "正文" then target else max target part.text.length
  splitText part.text limit overlap

/-- The chunks so far and the number of the next one. -/
abbrev Numbering := List DocumentChunk × Nat

def addContent (pageNo : Option Nat) (part : TextSection) (state : Numbering)
    (content : List Char) : Numbering :=
  (state.1 ++ [documentChunk rt docId version pageNo part state.2 content], state.2 + 1)

def addSection (pageNo : Option Nat) (state : Numbering) (part : TextSection) : Numbering :=
  (contents target overlap part).foldl (addContent rt docId version pageNo part) state

def addBlock (state : Numbering) (block : ParsedBlock) : Numbering :=
  (sections rt.decimal block).foldl (addSection rt docId version target overlap block.pageNo) state

def chunkBlocks (blocks : List ParsedBlock) : List DocumentChunk :=
  (blocks.foldl (addBlock rt docId version target overlap) ([], 0)).1

end chunks

/-- ASCII digits, a digest that is the text, no keywords. -/
def sampleRuntime : ChunkRuntime where
  decimal := Char.isDigit
  sha256 := String.ofList
  tokenize := fun _ => []

end EnergyAgent.Ingestion
