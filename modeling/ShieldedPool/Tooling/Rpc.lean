import Mathlib.Data.Rat.Defs
import ShieldedPool.Client
import ShieldedPool.Evm.Word

/-! pool_frametx.py's two ways to ask the node, and what it reads from the answers: JSON as
Python sees it, with the errors it raises on what it cannot read. -/

namespace ShieldedPool.Tooling
open Evm

/-- What `json.loads` makes of an answer. A float that is no number or infinite is like any number
but zero to the script, and text has no surrogates that stand alone. -/
inductive Json where
  | null
  | bool (b : Bool)
  | num (value : Rat)
  | str (text : String)
  | arr (items : List Json)
  | obj (fields : List (String × Json))

/-- What the tooling raises, without the wording. -/
inductive Raised where
  /-- the node could not be reached, or its answer is not JSON -/
  | transport
  /-- Python's own errors, on a value of the wrong kind or a missing key -/
  | malformed
  /-- the copy that is to be saved cannot be written -/
  | unsaved
  | rpcError (method : String) (error : Json)
  | simulateError (error : Json)
  | cast
  | feeOverrides
  | recentRoot
  | unavailable
  | invalid (violation : Json)
  | senderReverts (why : Json)
  | txReverted (status : Json)
  | notMined
  | arguments

structure Request where
  method : String
  params : List Json

/-- Each request is answered by JSON, or by nothing that can be read. -/
abbrev Rpc := Client Request (Option Json) Raised

namespace Json

/-- Python's truth value. -/
def truthy : Json → Bool
  | null => false
  | bool b => b
  | num value => value ≠ 0
  | str text => text ≠ ""
  | arr items => !items.isEmpty
  | obj fields => !fields.isEmpty

def fields : Json → Except Raised (List (String × Json))
  | obj fields => .ok fields
  | _ => .error .malformed

/-- `j.get(key)` -/
def get (j : Json) (key : String) : Except Raised Json :=
  j.fields.map fun fields => (fields.lookup key).getD null

/-- `j.get(key, default)` -/
def getD (j : Json) (key : String) (default : Json) : Except Raised Json :=
  j.fields.map fun fields => (fields.lookup key).getD default

/-- `j[key]` -/
def index (j : Json) (key : String) : Except Raised Json := do
  match (← j.fields).lookup key with
  | some value => return value
  | none => throw .malformed

/-- `j == text` -/
def isText (j : Json) (text : String) : Bool :=
  match j with
  | str t => t = text
  | _ => false

end Json

/-- The blanks of ASCII. -/
def isSpace (c : Char) : Bool := [0x09, 0x0a, 0x0b, 0x0c, 0x0d, 0x20].contains c.toNat

/-- The blanks beyond ASCII. -/
def isWideSpace (c : Char) : Bool :=
  [0x85, 0xa0, 0x1680, 0x2028, 0x2029, 0x202f, 0x205f, 0x3000].contains c.toNat || decide (0x2000 ≤ c.toNat ∧ c.toNat ≤ 0x200a)

/-- The other zeros of Unicode 15, which Python 3.12 knows. Nine more digits follow each. -/
def zeroDigits : List Nat :=
  [0x660, 0x6f0, 0x7c0, 0x966, 0x9e6, 0xa66, 0xae6, 0xb66, 0xbe6, 0xc66, 0xce6, 0xd66, 0xde6, 0xe50, 0xed0, 0xf20,
    0x1040, 0x1090, 0x17e0, 0x1810, 0x1946, 0x19d0, 0x1a80, 0x1a90, 0x1b50, 0x1bb0, 0x1c40, 0x1c50, 0xa620, 0xa8d0,
    0xa900, 0xa9d0, 0xa9f0, 0xaa50, 0xabf0, 0xff10, 0x104a0, 0x10d30, 0x11066, 0x110f0, 0x11136, 0x111d0, 0x112f0,
    0x11450, 0x114d0, 0x11650, 0x116c0, 0x11730, 0x118e0, 0x11950, 0x11c50, 0x11d50, 0x11da0, 0x11f50, 0x16a60,
    0x16ac0, 0x16b50, 0x1d7ce, 0x1d7d8, 0x1d7e2, 0x1d7ec, 0x1d7f6, 0x1e140, 0x1e2f0, 0x1e4f0, 0x1e950, 0x1fbf0]

/-- What `int` reads for a character: beyond ASCII, blanks are spaces and decimal digits count as
digits. Nothing can be read from a question mark. -/
def asciiOf (c : Char) : Char :=
  if c.toNat < 127 then c
  else if isWideSpace c then ' '
  else match zeroDigits.find? fun first => first ≤ c.toNat ∧ c.toNat < first + 10 with
    | some first => Char.ofNat ('0'.toNat + (c.toNat - first))
    | none => '?'

def hexDigit (c : Char) : Option Nat :=
  if '0' ≤ c ∧ c ≤ '9' then some (c.toNat - '0'.toNat)
  else if 'a' ≤ c ∧ c ≤ 'f' then some (c.toNat - 'a'.toNat + 10)
  else if 'A' ≤ c ∧ c ≤ 'F' then some (c.toNat - 'A'.toNat + 10)
  else none

/-- Digits with single underscores between them. `due` means that a digit has to come next. -/
def hexDigits (value : Nat) (due : Bool) : List Char → Option Nat
  | [] => if due then none else some value
  | '_' :: rest => if due then none else hexDigits value true rest
  | c :: rest => hexDigit c >>= fun d => hexDigits (16 * value + d) false rest

def hexMagnitude : List Char → Option Nat
  | '0' :: 'x' :: '_' :: rest | '0' :: 'X' :: '_' :: rest => hexDigits 0 true rest
  | '0' :: 'x' :: rest | '0' :: 'X' :: rest => hexDigits 0 true rest
  | text => hexDigits 0 true text

/-- `text.strip()`, for ASCII -/
def strip (text : List Char) : List Char := ((text.dropWhile isSpace).reverse.dropWhile isSpace).reverse

/-- `int(text, 16)` -/
def hexInt (text : String) : Option Int :=
  match strip (text.toList.map asciiOf) with
  | '-' :: rest => (hexMagnitude rest).map fun n => -(n : Int)
  | '+' :: rest => (hexMagnitude rest).map fun n => (n : Int)
  | rest => (hexMagnitude rest).map fun n => (n : Int)

/-- `int(j, 16)` -/
def quantity : Json → Except Raised Int
  | .str text => match hexInt text with
    | some n => .ok n
    | none => .error .malformed
  | _ => .error .malformed

/-- Python puts no integer of more than 4300 digits into decimal text. -/
def printed (n : Int) : Except Raised Unit :=
  if (Nat.toDigits 10 n.natAbs).length ≤ 4300 then .ok () else .error .malformed

def hexChar (n : Nat) : Char := if n < 10 then Char.ofNat (n + '0'.toNat) else Char.ofNat (n - 10 + 'a'.toNat)

/-- `"0x" + b.hex()` -/
def hexText (b : Bytes) : String :=
  String.ofList ('0' :: 'x' :: b.flatMap fun x => [hexChar (x.toNat / 16), hexChar (x.toNat % 16)])

def post (method : String) (params : List Json) : Rpc Json := do
  match ← Client.call ⟨method, params⟩ with
  | some body => return body
  | none => Client.raised .transport

/-- What the node's answer to `rpc` stands for. Python looks for the key `"error"` first, and
in an answer that is no object it fails either way. -/
def result (method : String) (body : Json) : Except Raised Json := do
  match (← body.fields).lookup "error" with
  | some error => throw (.rpcError method error)
  | none => body.index "result"

def rpc (method : String) (params : List Json) : Rpc Json := do
  let body ← post method params
  result method body

/-- The simulation's result, where `null` stands for Python's `None`: a node that does not
have the method gives no result. -/
def simulation (body : Json) : Except Raised Json := do
  match (← body.fields).lookup "error" with
  | some error =>
    match ← error.get "code" with
    | .num code => if code = -32601 then return .null else throw (.simulateError error)
    | _ => throw (.simulateError error)
  | none => body.index "result"

def simulate (raw : String) : Rpc Json := do
  let body ← post "ethrex_simulateFrameTransaction" [.str raw]
  simulation body

end ShieldedPool.Tooling
