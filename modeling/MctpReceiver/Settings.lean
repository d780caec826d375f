import MctpReceiver.Text

/-!
# Settings of a receiver

Settings come from the environment: one variable switches reassembly on or off. Its value is a word, in
any ASCII letter case and with blanks around it; any other value is refused as it stands.
-/

namespace MctpReceiver

/-- How observed frames are treated. -/
structure Settings where
  /-- Fragments are put together. Otherwise they are only reported, and messages that fit in one
  packet are still delivered. -/
  reassemble : Bool := true
  deriving DecidableEq, Repr, Inhabited

/-- Why the environment gives no settings. -/
inductive EnvironmentError where
  /-- The variable has a value that means nothing. -/
  | invalidValue (name value : String)
  deriving DecidableEq, Repr

/-- The wording of a refusal. -/
def EnvironmentError.message : EnvironmentError → String
  | .invalidValue name value => s!"invalid value {Text.quoted value} for {name}"

namespace Settings

/-- The variable that switches reassembly. -/
def reassembleVariable : String := "MCTP_REASSEMBLE"

/-- The words that switch on. -/
def onWords : List String := ["true", "1"]

/-- The words that switch off. -/
def offWords : List String := ["false", "0"]

/-- What a text says of a switch. Blanks at the ends and the case of ASCII letters do not matter. -/
def switch? (text : String) : Option Bool :=
  let word := String.ofList ((Text.trim text.toList).map Char.toLower)
  if word ∈ onWords then some true
  else if word ∈ offWords then some false
  else none

/-- The settings that the variables give; what they leave open is as by default. -/
def ofEnvironment (lookup : String → Option String) : Except EnvironmentError Settings :=
  match lookup reassembleVariable with
  | none => .ok {}
  | some value =>
    match switch? value with
    | some reassemble => .ok { reassemble }
    | none => .error (.invalidValue reassembleVariable value)

/-- The settings that the variables give, when their values are known as bytes. A value that is not
UTF-8 text counts as absent. -/
def ofEnvironmentBytes (lookup : String → Option ByteArray) : Except EnvironmentError Settings :=
  ofEnvironment fun name => (lookup name).bind String.fromUTF8?

end Settings

end MctpReceiver
