import Mathlib.Data.List.Sort
import ShieldedPool.Interface
import ShieldedPool.Tooling.Rpc
import ShieldedPool.Tooling.Wire

/-! pool_frametx.py: builds the frame transaction of a shield, a transfer or a withdraw, and
sends it if a simulation at the node gives no reason not to. Of its prints only the integers are
kept, which may be too long to print. -/

namespace ShieldedPool.Tooling
open Evm

/-- An argument of `cast calldata`. -/
inductive Arg where
  | word (w : Word)
  | address (a : Address)
  | spend (sp : Spend)

/-- What the script uses but does not contain: its key, the hash function, and foundry's `cast`. -/
structure Tools where
  signer : Address
  keccak : Bytes → Word
  sign : Word → Bool × Word × Word
  cast : String → List Arg → Option Bytes

variable (tools : Tools)

def spendTuple : String :=
  "(bytes32,bytes32,bytes32,bytes32,bytes32,bytes32,uint256,uint256,bytes32,uint256[2],uint256[2][2],uint256[2])"

def castCalldata (sig : String) (args : List Arg) : Except Raised Bytes :=
  match tools.cast sig args with
  | some data => .ok data
  | none => .error .cast

/-- A value Python has no encoding for. -/
def encoded {α : Type} : Option α → Except Raised α
  | some value => .ok value
  | none => .error .malformed

/-- The arguments of `build_and_send`. No protocol nonces and no references are empty lists. -/
structure Job where
  pool : Int
  value : Int
  calldata : Bytes
  protocolNonces : List Int := []
  /-- the paymaster, or none where the pool pays, and the calldata of its frame -/
  proofVerify : Option (Option Int × Bytes) := none
  recentRootRefs : List Wire.Reference := []
  senderOverride : Option Int := none
  maxFeeOverride : Option Int := none
  maxPriorityOverride : Option Int := none
  settleGasOverride : Option Int := none
  /-- whether the copy of the transaction can be written, if one is asked for -/
  saved : Bool := true

/-- What `build_and_send` has learned when it starts to build. -/
structure Context where
  sender : Int
  chainId : Int
  nonce : Int
  maxPriority : Int
  maxFee : Int

variable (job : Job)

def Job.sender : Int := job.senderOverride.getD tools.signer.toNat

def Job.senderGas : Int := job.settleGasOverride.getD 10000000

def Job.maxPriority : Int := job.maxPriorityOverride.getD (10 ^ 9)

def Job.maxFee (baseFee : Int) : Int := job.maxFeeOverride.getD (baseFee * 2 + job.maxPriority)

def prepare : Rpc Context := do
  let sender := job.sender tools
  let chainId ← quantity (← rpc "eth_chainId" [])
  let nonceAddress ← encoded (Wire.toBytes 20 sender)
  let nonce ← quantity (← rpc "eth_getTransactionCount" [.str (hexText nonceAddress), .str "latest"])
  let blk ← rpc "eth_getBlockByNumber" [.str "latest", .bool false]
  let baseFee ← quantity (← blk.getD "baseFeePerGas" (.str "0x0"))
  let maxPriority := job.maxPriority
  let maxFee := job.maxFee baseFee
  if maxFee < baseFee ∨ maxPriority > maxFee then Client.raised .feeOverrides
  else return { sender, chainId, nonce, maxPriority, maxFee }

/-- The VERIFY frames: the pool's own, with a payer's after it if there is one, or without a
proof the sender's. -/
def verifyFrames (sender : Int) : List Wire.Frame :=
  match job.proofVerify with
  | some (none, _) =>
    [{ mode := 1, flags := 0x03, target := some sender, gasLimit := 350000, value := 0, data := [] }]
  | some (some paymaster, vcalldata) =>
    [{ mode := 1, flags := 0x02, target := some sender, gasLimit := 300000, value := 0, data := [] },
     { mode := 1, flags := 0x01, target := some paymaster, gasLimit := 100000, value := 0, data := vcalldata }]
  | none =>
    [{ mode := 1, flags := 0x03, target := some sender, gasLimit := 80000, value := 0, data := [] }]

def settleFrame (senderGas : Int) : Wire.Frame :=
  { mode := 2, flags := 0, target := some job.pool, gasLimit := senderGas, value := job.value, data := job.calldata }

/-- The transaction with the given signature of its one signer. -/
def unsigned (c : Context) (senderGas : Int) (signature : Bytes) : Wire.FrameTx where
  chainId := c.chainId
  nonceKeys := if job.protocolNonces = [] then [0] else job.protocolNonces
  nonceSeq := if job.protocolNonces = [] then c.nonce else 0
  sender := c.sender
  frames := verifyFrames job c.sender ++ [settleFrame job senderGas]
  signatures := [{ scheme := Wire.secp256k1, signer := tools.signer.toNat, msg := [], signature }]
  maxPriorityFee := c.maxPriority
  maxFee := c.maxFee
  recentRootRefs := job.recentRootRefs

def build (c : Context) (senderGas : Int) : Except Raised Wire.FrameTx := do
  let hash ← encoded ((unsigned tools job c senderGas []).sigHash tools.keccak)
  let (v, r, s) := tools.sign hash
  return unsigned tools job c senderGas ((if v then 28#8 else 27#8) :: (encodeWord r ++ encodeWord s))

def rawText (tx : Wire.FrameTx) : Except Raised String := (encoded tx.raw).map hexText

/-- `hexint`: the node may leave a number out or answer `null`. -/
def hexint (v : Json) : Except Raised (Option Int) :=
  match v with
  | .str text => (quantity (.str text)).map some
  | _ => .ok none

/-- `sim.get("frames") or []`; Python fails on the elements of anything but a list. -/
def framesOf (sim : Json) : Except Raised (List Json) := do
  let frames ← sim.get "frames"
  if frames.truthy then
    match frames with
    | .arr items => return items
    | _ => throw .malformed
  else return []

/-- The copy of the transaction that `save_raw` asks for. -/
def save : Except Raised Unit := if job.saved then .ok () else .error .unsaved

/-- A number of a simulation, if it is there to be printed. -/
def printedHexint (v : Json) : Except Raised Unit := do
  match ← hexint v with
  | some n => printed n
  | none => return ()

/-- What the script prints of a valid simulation, down to the gas its last frame used. -/
def gasUsed (sim : Json) : Except Raised (Option Int) := do
  let frames ← framesOf sim
  for f in frames do
    printedHexint (← f.get "gasUsed")
  printedHexint (← sim.get "gasUsed")
  hexint (← (frames.getLast?.getD (.obj [])).get "gasUsed")

/-- What a dry run prints. -/
def report (tx : Wire.FrameTx) (sim : Json) : Except Raised Unit := do
  for f in ← framesOf sim do
    printed (← quantity (← f.index "gasUsed"))
  let total ← sim.get "gasUsed"
  if total.truthy then
    printed (← quantity total)
  printed (← encoded tx.maxCost)
  printed (← encoded tx.totalGasLimit)

/-- What is to be sent: a transaction, its bytes, and the simulation that decides whether they are sent. -/
structure Choice where
  tx : Wire.FrameTx
  raw : String
  eff : Json

/-- The resized transaction, if the node finds it valid, in place of the first one. -/
def resize (c : Context) (first : Choice) (used : Int) : Rpc Choice := do
  let sized := used + used / 4
  let tx2 ← build tools job c sized
  let raw2 ← rawText tx2
  let s2 ← simulate raw2
  if s2.truthy then
    let valid ← s2.get "valid"
    if valid.truthy then
      printed sized
      printed used
      return ⟨tx2, raw2, s2⟩
    else return first
  else return first

/-- The branches on a simulation that came back. -/
def judge (c : Context) (first : Choice) : Rpc Choice := do
  let valid ← first.eff.get "valid"
  if valid.truthy then
    match ← gasUsed first.eff with
    | some used => if job.protocolNonces = [] then resize tools job c first used else return first
    | none => return first
  else Client.raised (.invalid (← first.eff.get "violation"))

/-- The transaction with its simulation, or the resized one with its own. -/
def examine (c : Context) (first : Choice) : Rpc Choice :=
  match first.eff with
  | .null => if job.protocolNonces = [] then return first else Client.raised .unavailable
  | _ => judge tools job c first

/-- The last check before sending. -/
def gate (eff : Json) : Except Raised Unit := do
  if eff.truthy then
    let status ← eff.get "executionStatus"
    if status.truthy ∧ ¬ status.isText "success" then
      let error ← eff.get "executionError"
      throw (.senderReverts (if error.truthy then error else status))

/-- What the script prints before it sends. -/
def announce (tx : Wire.FrameTx) : Except Raised Unit := do
  tx.nonceKeys.forM printed
  printed (← encoded tx.maxCost)

/-- The receipt, for which the script looks `tries` times. -/
def await (txhash : Json) : Nat → Rpc Json
  | 0 => Client.raised .notMined
  | tries + 1 => do
    let rcpt ← rpc "eth_getTransactionReceipt" [txhash]
    if rcpt.truthy then
      let status ← quantity (← rcpt.getD "status" (.str "0x0"))
      printed (← quantity (← rcpt.index "blockNumber"))
      printed (← quantity (← rcpt.getD "gasUsed" (.str "0x0")))
      if status ≠ 1 then Client.raised (.txReverted (← rcpt.get "status")) else return rcpt
    else await txhash tries

def broadcast (raw : String) : Rpc Json := do
  let txhash ← rpc "eth_sendRawTransaction" [.str raw]
  await txhash 30

def buildAndSend (dryRun : Bool) : Rpc Json := do
  let c ← prepare tools job
  let tx ← build tools job c job.senderGas
  let raw ← rawText tx
  save job
  let sim ← simulate raw
  if dryRun then
    match sim with
    | .null => return .null
    | sim => do
      report tx sim
      return .null
  else
    let chosen ← examine tools job c ⟨tx, raw, sim⟩
    gate chosen.eff
    announce chosen.tx
    broadcast chosen.raw

/-- The deployment's JSON file. A paymaster that is left empty is none. -/
structure Config where
  pool : Int
  sourceId : Bytes
  genesisTimestamp : Option Int := none
  secondsPerSlot : Option Int := none
  slotTransfer : Option Int := none
  slotWithdraw : Option Int := none
  paymaster : Option Int := none

/-- The fixture's JSON file: what it shields, and its spends by key. -/
structure Fixture where
  shields : Option (List (Int × Word)) := none
  shieldValue : Int
  innerA : Word
  spends : String → Option Spend
  recipient : Option Address

inductive Op where
  | shield | transfer | withdraw
  deriving DecidableEq, Repr

/-- The flags. -/
structure Options where
  sender : Option Int := none
  nonceKeys : Option (List Int) := none
  settleGas : Option Int := none
  flipProof : Bool := false
  spendKey : Option String := none
  rootSlot : Option Int := none
  note : Option Nat := none
  sponsored : Bool := false
  paymaster : Option Int := none
  maxFee : Option Int := none
  maxPriority : Option Int := none
  dryRun : Bool := false
  saved : Bool := true

variable (cfg : Config) (fix : Fixture) (opts : Options)

def Op.name : Op → String
  | .shield => "shield"
  | .transfer => "transfer"
  | .withdraw => "withdraw"

/-- `cfg[f"_slot_{op_name}"]` -/
def Config.slot : Op → Option Int
  | .shield => none
  | .transfer => cfg.slotTransfer
  | .withdraw => cfg.slotWithdraw

def ascii (text : String) : Bytes := text.toList.map fun c => BitVec.ofNat 8 c.toNat

/-- `hex(n)` -/
def hexNumber (n : Int) : String :=
  String.ofList ((if n < 0 then ['-', '0', 'x'] else ['0', 'x']) ++ Nat.toDigits 16 n.natAbs)

/-- `bytes.fromhex`, which passes over blanks between two bytes -/
def fromHex : List Char → Option Bytes
  | [] => some []
  | c :: rest =>
    if isSpace c then fromHex rest
    else match rest with
      | [] => none
      | c' :: rest => do
        let high ← hexDigit c
        let low ← hexDigit c'
        return BitVec.ofNat 8 (16 * high + low) :: (← fromHex rest)

/-- `bytes.fromhex(stored.removeprefix("0x").rjust(64, "0"))` -/
def storedBytes : Json → Except Raised Bytes
  | .str text =>
    let digits := match text.toList with
      | '0' :: 'x' :: rest => rest
      | rest => rest
    encoded (fromHex (List.replicate (64 - digits.length) '0' ++ digits))
  | _ => .error .malformed

/-- The timestamp of a block. -/
def timestamp (number : String) : Rpc Int := do
  let block ← rpc "eth_getBlockByNumber" [.str number, .bool false]
  let field ← block.index "timestamp"
  quantity field

/-- The genesis timestamp, from the configuration or else from block 0. -/
def genesisTimestamp : Rpc Int :=
  match cfg.genesisTimestamp with
  | some genesis => return genesis
  | none => timestamp "0x0"

/-- The reference, once the entry that the protocol will check it against is found to be there. -/
def committedRef (slot : Int) (root : Word) : Rpc Wire.Reference := do
  let slotBytes ← encoded (Wire.toBytes 8 slot)
  let placeBytes ← encoded (Wire.toBytes 8 (slot.fmod 8192))
  let entry := tools.keccak (encodeWord (tools.keccak (ascii "RECENT_ROOT_ENTRY")) ++ cfg.sourceId ++ slotBytes ++ encodeWord root)
  let key := tools.keccak (encodeWord (tools.keccak (ascii "RECENT_ROOT_STORAGE")) ++ cfg.sourceId ++ placeBytes)
  let stored ← rpc "eth_getStorageAt"
    [.str "0x0000000000000000000000000000000000008272", .str (hexText (encodeWord key)), .str "latest"]
  let bytes ← storedBytes stored
  if bytes ≠ encodeWord entry then Client.raised .recentRoot
  else return { sourceId := cfg.sourceId, slot, root := encodeWord root }

/-- The reference to `root`, published in the block `pubBlock`. -/
def recentRootRef (pubBlock : Int) (root : Word) : Rpc Wire.Reference := do
  let ts ← timestamp (hexNumber pubBlock)
  let genesis ← genesisTimestamp cfg
  let seconds := cfg.secondsPerSlot.getD 6
  if seconds = 0 then Client.raised .malformed
  else committedRef tools cfg ((ts - genesis).fdiv seconds) root

/-- The payer of a spend that is not the pool. -/
def payer : Except Raised (Option Int) :=
  let paymaster := match opts.paymaster with
    | some given => some given
    | none => if opts.sponsored then cfg.paymaster else none
  match paymaster with
  | some a => if a = 0 ∨ a ≥ 2 ^ 160 then .error .arguments else .ok (some a)
  | none => if opts.sponsored then .error .arguments else .ok none

/-- `e["proof"]["pA"][0] ^ 1` under `--flip-proof` -/
def flipped (e : Spend) : Spend := if opts.flipProof then { e with pA := (e.pA.1 ^^^ 1, e.pA.2) } else e

structure Setup where
  entry : Spend
  protocolNonces : List Int
  verify : Option Int × Bytes
  refs : List Wire.Reference

def verifyProofOnly : String := "verifyProofOnly(" ++ spendTuple ++ ")"

def transferSig : String := "transfer(" ++ spendTuple ++ ")"

def withdrawSig : String := "withdraw(" ++ spendTuple ++ ",address)"

def spendSetup (op : Op) (paymaster : Option Int) : Rpc Setup := do
  let found ← encoded (fix.spends (opts.spendKey.getD op.name))
  let e := flipped opts found
  let protocolNonces := [(e.nf1.toNat : Int), e.nf2.toNat].insertionSort (· ≤ ·)
  let carrier ← castCalldata tools verifyProofOnly [.spend e]
  let slot ← encoded (opts.rootSlot.orElse fun _ => cfg.slot op)
  let ref ← recentRootRef tools cfg slot e.root
  return { entry := e, protocolNonces, verify := (paymaster, carrier), refs := [ref] }

def spendCalldata (op : Op) (e : Spend) : Except Raised Bytes :=
  match op with
  | .withdraw => do
    let recipient ← encoded fix.recipient
    castCalldata tools withdrawSig [.spend e, .address recipient]
  | _ => castCalldata tools transferSig [.spend e]

/-- What `build_and_send` is called with for a transfer or a withdraw. -/
def spendJob (op : Op) : Rpc Job := do
  let paymaster ← payer cfg opts
  let setup ← spendSetup tools cfg fix opts op paymaster
  let calldata ← spendCalldata tools fix op setup.entry
  return {
    pool := cfg.pool
    value := 0
    calldata
    protocolNonces := opts.nonceKeys.getD setup.protocolNonces
    proofVerify := some setup.verify
    recentRootRefs := setup.refs
    senderOverride := some (opts.sender.getD cfg.pool)
    maxFeeOverride := opts.maxFee
    maxPriorityOverride := opts.maxPriority
    settleGasOverride := opts.settleGas
    saved := opts.saved }

def shieldJob : Except Raised Job := do
  let (value, inner) ← match fix.shields with
    | some notes => encoded (opts.note >>= fun i => notes[i]?)
    | none => pure (fix.shieldValue, fix.innerA)
  let calldata ← castCalldata tools "shield(bytes32)" [.word inner]
  return { pool := cfg.pool, value, calldata }

def main (op : Op) : Rpc Json := do
  let job ← match op with
    | .shield => liftM (shieldJob tools cfg fix opts)
    | op => spendJob tools cfg fix opts op
  buildAndSend tools job opts.dryRun

end ShieldedPool.Tooling
