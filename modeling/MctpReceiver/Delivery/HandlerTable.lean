import MctpReceiver.Delivery.Dispatcher
import Std.Data.HashMap

/-!
# Handlers by message type

A handler table is a dispatcher that claims the messages for whose type it has a handler. Types go
by their code alone, and a code has at most one handler, the one registered last. The table records
the calls that it makes, and its owner carries them out.
-/

namespace MctpReceiver

structure Call (H : Type) where
  handler : H
  /-- The message without the byte that tells its type. -/
  payload : List UInt8
  frame : FrameId
  origin : Origin
  deriving DecidableEq, Repr

/-- Handlers by the code of their message type. -/
structure HandlerTable (H : Type) where
  handlers : Std.HashMap UInt8 H
  calls : Array (Call H)

namespace HandlerTable

variable {H : Type}

def empty : HandlerTable H := ⟨∅, #[]⟩

instance : EmptyCollection (HandlerTable H) := ⟨empty⟩

instance : Inhabited (HandlerTable H) := ⟨empty⟩

def get? (t : HandlerTable H) (type : MessageType) : Option H := t.handlers[type.code]?

def isRegistered (t : HandlerTable H) (type : MessageType) : Bool := t.handlers.contains type.code

/-- Gives a message type a handler, and returns the one that it had before. -/
def register (t : HandlerTable H) (type : MessageType) (handler : H) :
    Option H × HandlerTable H :=
  (t.get? type, { t with handlers := t.handlers.insert type.code handler })

/-- Takes the handler of a message type away, and returns it. -/
def unregister (t : HandlerTable H) (type : MessageType) : Option H × HandlerTable H :=
  (t.get? type, { t with handlers := t.handlers.erase type.code })

/-- The message types with a handler, sorted by their codes. The map keeps its keys in no order. -/
def types (t : HandlerTable H) : List MessageType :=
  (t.handlers.keys.map .ofCode).mergeSort fun type other => type.code ≤ other.code

instance : ToString (HandlerTable H) where
  toString t :=
    "DispatchTable \x7b message_types: [" ++ ", ".intercalate (t.types.map (·.name)) ++ "] \x7d"

/-- Calls the handler of the message's type, if there is one. -/
instance : Dispatcher (HandlerTable H) where
  dispatch t delivery :=
    match t.get? delivery.type with
    | none => (false, t)
    | some handler =>
      let call := ⟨handler, delivery.payload, delivery.frame, delivery.origin⟩
      (true, { t with calls := t.calls.push call })

theorem get?_register (t : HandlerTable H) (type other : MessageType) (handler : H) :
    (t.register type handler).2.get? other =
      if type.code = other.code then some handler else t.get? other := by
  simp [get?, register, Std.HashMap.getElem?_insert]

theorem get?_unregister (t : HandlerTable H) (type other : MessageType) :
    (t.unregister type).2.get? other = if type.code = other.code then none else t.get? other := by
  simp [get?, unregister, Std.HashMap.getElem?_erase]

theorem isRegistered_eq (t : HandlerTable H) (type : MessageType) :
    t.isRegistered type = (t.get? type).isSome := by
  simp [get?, isRegistered]

end HandlerTable

end MctpReceiver
