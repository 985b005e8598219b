import ContractDeploy.Record.Form
import ContractDeploy.Text.Blank
import ContractDeploy.World

/-!
# The address book

A document that holds, for each network, the record of every contract deployed there. It is read
as a whole when a book is opened, and written as a whole whenever an entry is set. A write that
fails is told and otherwise passed over: what the opened book holds stays in force. Whoever writes
last decides what the file holds.
-/

namespace ContractDeploy

/-- The records of all networks, by network and by contract name. -/
abbrev BookDocument := NameMap (NameMap Record)

namespace BookDocument

/-- Reads the text of an address book. A blank text is a book without entries. -/
def parse (text : String) : Except RegistryFault BookDocument :=
  if Text.allBlank text.toList then .ok NameMap.empty
  else do
    let source := Json.read text
    let document ← Json.asMapWith .shape Json.depthLimit
      (fun depth => Json.asMapWith .shape depth Record.ofJson) source.value
    if source.complete then return document else throw (.shape .syntaxError)

/-- The document of a map from names. -/
def writeMap {α : Type} (write : α → Json) (map : NameMap α) : Json :=
  Json.ofFields (map.entries.map fun (name, value) => Json.field name (write value))

/-- The text of an address book. -/
def print (document : BookDocument) : String :=
  Json.pretty (writeMap (writeMap Record.toJson) document)

/-- The document with a list of entries for a network: the one it has, or an empty one. -/
def withNetwork (document : BookDocument) (network : String) : BookDocument :=
  document.insert network ((document.get? network).getD NameMap.empty)

theorem get?_withNetwork (document : BookDocument) (network other : String) :
    (document.withNetwork network).get? other =
      if network = other then some ((document.get? network).getD NameMap.empty)
      else document.get? other :=
  NameMap.get?_insert document network other _

end BookDocument

/-- An address book opened for a network. -/
structure Book where
  /-- The path of its file. -/
  file : String
  /-- The network whose entries are read and set. -/
  network : String
  /-- The entries of all networks. -/
  document : BookDocument

namespace Book

/-- The entries of the book's network. -/
def entries (book : Book) : NameMap Record :=
  (book.document.get? book.network).getD NameMap.empty

/-- The names of the recorded contracts, in increasing order. -/
def list (book : Book) : List String := book.entries.names

/-- The record of a contract. One without an entry has the record of what is not deployed. -/
def get (book : Book) (name : String) : Record := (book.entries.get? name).getD Record.missing

/-- The book with a contract's entry replaced. -/
def insert (book : Book) (name : String) (record : Record) : Book :=
  { book with document := book.document.insert book.network (book.entries.insert name record) }

/-- What a set entry leaves of the others, and of the other networks. -/
theorem get?_document_insert (book : Book) (name network : String) (record : Record) :
    (book.insert name record).document.get? network =
      if book.network = network then some (book.entries.insert name record)
      else book.document.get? network := by
  simp [insert, NameMap.get?_insert]

theorem entries_insert (book : Book) (name : String) (record : Record) :
    (book.insert name record).entries = book.entries.insert name record := by
  simp [entries, insert, NameMap.get?_insert]

theorem get_insert (book : Book) (name other : String) (record : Record) :
    (book.insert name record).get other = if name = other then record else book.get other := by
  rw [get, entries_insert, NameMap.get?_insert]
  split <;> simp [get]

variable {γ φ : Type} (host : Host γ φ)

/-- Opens the address book in a file for a network. A network that the file does not have gets an
empty list of entries, which reaches the file only when an entry is set. -/
def openFile (file network : String) : Run γ φ Book := do
  match ← host.readFile file with
  | .error fault => throw (.readBook file fault)
  | .ok text =>
    match BookDocument.parse text with
    | .error fault => throw (.malformedBook fault)
    | .ok document =>
      Run.tell (.openedBook file network)
      return { file, network, document := document.withNetwork network }

/-- Writes the whole document to the book's file. -/
def save (book : Book) (name : String) : Act γ φ Unit := do
  match ← host.writeFile book.file book.document.print with
  | .ok () => return
  | .error fault => Act.tell (.bookNotSaved name (.writeBook book.file fault))

/-- Replaces the entry of a contract and writes the document. -/
def set (book : Book) (name : String) (record : Record) : Act γ φ Book := do
  let book := book.insert name record
  book.save host name
  return book

end Book

end ContractDeploy
