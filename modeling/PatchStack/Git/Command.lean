import PatchStack.Error

set_option autoImplicit false

/-!
# Asking git

A repository is known only by the answers that git gives. Here git is any function from a
command, and the commands run before it, to a reply: so an answer may change from one time to
the next, and a repository can be given as a table of replies.

What a command prints is a sequence of octets. It is read as UTF-8; octets that cannot be read
give one replacement character for each longest beginning of a character among them.

## Main definitions

* `PatchStack.Utf8.decode`, `PatchStack.Utf8.encode` — octets read as text, text written as octets.
* `PatchStack.Reply` — how a command ended and what it printed.
* `PatchStack.Git` — what git replies to each command.
* `PatchStack.Shell` — a computation that runs commands.
* `PatchStack.ReplyTable` — replies by the text of the command.
-/

namespace PatchStack

/-! ## Octets and text -/

namespace Utf8

/-- The character that stands for what cannot be read. -/
def replacement : Char := '\uFFFD'

/-- The beginning of a character: the value so far, how many octets are still owed, and between
which octets the next one has to be. -/
structure Pending where
  /-- The value of the octets so far. -/
  value : Nat
  /-- How many octets are owed after the next one. -/
  owed : Nat
  /-- The least next octet. -/
  low : Nat
  /-- The greatest next octet. -/
  high : Nat

/-- The first octet of a character. -/
def begin (b : Nat) : Text × Option Pending :=
  if b ≤ 0x7F then ([Char.ofNat b], none)
  else if 0xC2 ≤ b ∧ b ≤ 0xDF then ([], some ⟨b - 0xC0, 0, 0x80, 0xBF⟩)
  else if b = 0xE0 then ([], some ⟨0, 1, 0xA0, 0xBF⟩)
  else if b = 0xED then ([], some ⟨0xD, 1, 0x80, 0x9F⟩)
  else if 0xE1 ≤ b ∧ b ≤ 0xEF then ([], some ⟨b - 0xE0, 1, 0x80, 0xBF⟩)
  else if b = 0xF0 then ([], some ⟨0, 2, 0x90, 0xBF⟩)
  else if 0xF1 ≤ b ∧ b ≤ 0xF3 then ([], some ⟨b - 0xF0, 2, 0x80, 0xBF⟩)
  else if b = 0xF4 then ([], some ⟨4, 2, 0x80, 0x8F⟩)
  else ([replacement], none)

/-- One octet more: the characters it completes and what is pending after it. -/
def step (pending : Option Pending) (b : Nat) : Text × Option Pending :=
  match pending with
  | none => begin b
  | some p =>
    if p.low ≤ b ∧ b ≤ p.high then
      let value := p.value * 64 + (b - 0x80)
      match p.owed with
      | 0 => ([Char.ofNat value], none)
      | owed + 1 => ([], some ⟨value, owed, 0x80, 0xBF⟩)
    else (replacement :: (begin b).1, (begin b).2)

/-- Reads octets after the beginning of a character. -/
def decodeFrom (pending : Option Pending) : List UInt8 → Text
  | [] => if pending.isSome then [replacement] else []
  | b :: rest => (step pending b.toNat).1 ++ decodeFrom (step pending b.toNat).2 rest

/-- Reads octets as text. -/
def decode (octets : List UInt8) : Text := decodeFrom none octets

/-- Writes text as octets. -/
def encode (t : Text) : List UInt8 := t.flatMap String.utf8EncodeChar

end Utf8

/-! ## Commands and replies -/

/-- The arguments of git. -/
abbrev Command := List Text

/-- How a command ended and what it printed. -/
structure Reply where
  /-- The exit status. -/
  status : Int
  /-- The octets of its output. -/
  out : List UInt8
  /-- The octets of its error output. -/
  err : List UInt8

/-- What git replies to a command, given the commands run before it. -/
abbrev Git := List Command → Command → Reply

/-- A computation that runs commands; the state is the list of those asked for, the first one
first. -/
abbrev Shell (α : Type) := Run (List Command) α

/-- What a command printed, as text. -/
structure Answer where
  /-- The exit status. -/
  status : Int
  /-- The output. -/
  out : Text
  /-- The error output. -/
  err : Text

/-- How many octets an argument may have, with the zero that ends it. -/
def argumentLimit : Nat := 131072

/-- Why the system does not start a command, if it does not. -/
def launchFault? (command : Command) : Option LaunchFault :=
  if command.any (·.contains '\u0000') then some .zero
  else if command.any fun argument => argumentLimit ≤ (Utf8.encode argument).length then
    some .tooLong
  else none

namespace Git

/-- Runs a command, whatever its status. -/
def run (git : Git) (command : Command) : Shell Answer := do
  let past ← get
  set (past ++ [command])
  match launchFault? command with
  | some fault => throw (.breakdown (.launch fault))
  | none =>
    let reply := git past command
    return ⟨reply.status, Utf8.decode reply.out, Utf8.decode reply.err⟩

end Git

/-! ## Tables of replies -/

/-- Replies by the text of the command. A command run again and again uses up its replies; the
last one is repeated. -/
abbrev ReplyTable := List (Text × List Reply)

/-- The text of a command: its arguments with single spaces between them. -/
def commandText (command : Command) : Text := Text.join [' '] command

/-- The reply to a command that a table does not list: the revision is not known. -/
def unknownReply : Reply :=
  ⟨128, [], Utf8.encode "fatal: Needed a single revision\n".toList⟩

/-- Git as a table of replies. -/
def ReplyTable.git (table : ReplyTable) : Git := fun past command =>
  match table.find? fun entry => entry.1 == commandText command with
  | none => unknownReply
  | some (_, replies) =>
    let uses := past.countP fun c => commandText c == commandText command
    (replies[uses]?.or replies.getLast?).getD unknownReply

end PatchStack
