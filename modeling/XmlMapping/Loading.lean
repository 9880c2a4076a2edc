import XmlMapping.Config.Reader
import XmlMapping.Error

/-!
# Loading

Texts from bytes, documents and configurations from texts, and the setup that a valid configuration
gives: the bindings under which mappings run, and the limit under which documents are loaded.
-/

namespace XmlMapping

/-- What a file or stream holds: its bytes, or the message of the system where they cannot be read. -/
abbrev Contents := Except String ByteArray

/-- The name in messages of a source that is no file. -/
def streamName : String := "<stream>"

/-- The message where the bytes of a source are those of no text. -/
def noTextMessage : String := "stream did not contain valid UTF-8"

/-- The text of a source, given what it holds. -/
def loadText (source : String) : Contents → Except LoadError String
  | .error reason => .error (.unread source reason)
  | .ok bytes =>
    match String.fromUTF8? bytes with
    | some text => .ok text
    | none => .error (.unread source noTextMessage)

/-- The document of a text that has at most so many nodes. -/
def loadDocument (mostNodes : Nat) (text : String) : Except LoadError Document :=
  (Markup.parse mostNodes text).mapError .markup

/-- The configuration that a text holds, which must be valid. -/
def Config.load (text : String) : Except Error Config := do
  let c ← (Config.read text).mapError Error.json
  c.validate.mapError Error.configuration
  return c

/-- What documents are loaded and mapped under. -/
structure Setup where
  bindings : Bindings
  mostNodes : Nat
deriving DecidableEq

/-- The setup with given bindings and no limit. -/
def Setup.ofBindings (b : Bindings) : Setup :=
  ⟨b, Markup.unlimited⟩

/-- The setup of a configuration, which must be valid. -/
def Setup.ofConfig (c : Config) : Except Error Setup := do
  c.validate.mapError Error.configuration
  return ⟨c.namespaces, c.mostNodes⟩

end XmlMapping
