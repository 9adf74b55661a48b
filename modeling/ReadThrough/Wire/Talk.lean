import ReadThrough.Wire.Command
import ReadThrough.Wire.Reply

/-! # Conversations

A conversation with a store server (`Talk`): commands are sent, one reply comes back, and what is
sent next depends on it.

* **Running** (`Talk.run`).  Whatever answers can take the part of the server.
* **Scripts** (`Talk.script`).  A script is called by its digest; if the server does not know it,
  it is loaded and called once more. -/

namespace ReadThrough.Wire

/-- A conversation that ends with a result. -/
inductive Talk (α : Type) where
  | result (result : Except Error α)
  /-- Send commands together; the reply to the last one decides. -/
  | ask (commands : List Command) (next : Reply → Talk α)

namespace Talk

variable {α β : Type}

/-- Go on with the result of a conversation, also after a failure. -/
def onEnd (f : Except Error α → Talk β) : Talk α → Talk β
  | result r => f r
  | ask commands next => ask commands fun reply => (next reply).onEnd f

/-- Go on with the result of a conversation that did not fail. -/
def bind (t : Talk α) (f : α → Talk β) : Talk β :=
  t.onEnd fun
    | .ok v => f v
    | .error e => result (.error e)

instance : Monad Talk where
  pure v := result (.ok v)
  bind := bind

/-- Send commands and read the reply; a refusal inside it is an error. -/
def exchange (commands : List Command) (read : Reply → Except Error α) : Talk α :=
  ask commands fun reply =>
    match reply.refusal? with
    | some r => result (.error (.store r.message))
    | none => result (read reply)

/-- Send one command. -/
def single (command : Command) (read : Reply → Except Error α) : Talk α :=
  exchange [command] read

/-- The reply to a transaction is a list, or nothing if it did not take place. -/
def transactionReply (read : Reply → Except Error α) (reply : Reply) : Except Error α :=
  match reply with
  | .nothing => read reply
  | .list _ => read reply
  | _ => .error (.store "Invalid response when parsing multi response- ResponseError")

/-- Send commands that take effect together. -/
def atomic (commands : List Command) (read : Reply → Except Error α) : Talk α :=
  exchange (Command.atomic commands) (transactionReply read)

/-- Run a script. -/
def script (s : Script) (keys args : List String) (read : Reply → Except Error α) : Talk α :=
  let call := Command.run s keys args
  ask [call] fun reply =>
    match reply.refusal? with
    | some r =>
      if r.isUnknownScript then
        (single (.load s) fun _ => .ok ()).bind fun _ => single call read
      else result (.error (.store r.message))
    | none => result (read reply)

/-- Run a conversation with something that answers. -/
def run {σ : Type} (answer : σ → List Command → Reply × σ) : Talk α → σ → Except Error α × σ
  | result r, s => (r, s)
  | ask commands next, s =>
    let (reply, s) := answer s commands
    (next reply).run answer s

end Talk

end ReadThrough.Wire
