import ShieldedPool.Dispatcher
import ShieldedPool.Ledger
import ShieldedPool.Monolith
import ShieldedPool.Reference

/-! The pool as deployed: the storage its constructor leaves, the storage any calls can
lead to from there, and the pool's code as the chain runs it. -/

namespace ShieldedPool
open Evm

/-- Storage and publications after the dispatcher's constructor. -/
def genesis : State := { State.empty with currentRoot := zeroRoot, published := [zeroRoot] }

/-- The states the settlement code can bring the pool to: any caller, value, calldata and
block, and whatever the probe and the predeploy answer. A revert only goes back to an
earlier state, and a payout in flight leaves the state in which its recipient runs. -/
inductive Reachable (d : Deployment) : State → Prop where
  | deployed : Reachable d genesis
  | call {s t : State} {c : Call} {reply : Reply} (reachable : Reachable d s)
      (returned : Logic.call d c s = .ok (reply, t)) : Reachable d t

namespace Dispatcher

def poolCode (d : Deployment) (image : Image) : PoolCode State where
  call := call d image
  resume := resume
  authorize := fun c o _ => authorize d image c o
  published := State.published

end Dispatcher

namespace Reference

/-- ShieldedPool.sol under the dispatcher's identity: its own settlement behind the
frame-0 code that the pinned sender runs. -/
def poolCode (d : Deployment) (image : Dispatcher.Image) (r : Immutables) : PoolCode State where
  call := call d r
  resume := finishClaim
  authorize := fun c o _ => Dispatcher.authorize d image c o
  published := State.published

end Reference

namespace Monolith

/-- An account without storage. -/
def World.blank : World := ⟨fun _ => 0, [], []⟩

/-- The root that a write to the predeploy records under the pool's salt. -/
def recordedRoot (data : Bytes) : Option Word :=
  if data.length = 64 ∧ wordAt data 0 = salt then some (wordAt data 32) else none

def poolCode (d : Deployment) (image : Image) : PoolCode World where
  call := call d image
  resume := resume
  authorize := authorize d image
  published := fun world => world.published.filterMap recordedRoot

end Monolith

/-- What the chain adds to a pool: the protocol's entry point and the other accounts. -/
structure Outside (pool : Address) where
  entryPoint : Address
  apart : entryPoint ≠ pool
  acts : Address → Prop
  approves : Address → Opcodes → Bytes → Word → Prop

def networkOf {σ : Type} (d : Deployment) (outside : Outside d.self) (code : PoolCode σ) : Network σ where
  self := d.self
  sourceId := d.sourceId
  entryPoint := outside.entryPoint
  apart := outside.apart
  code := code
  acts := outside.acts
  approves := outside.approves

/-- The chain with the production pool on it. -/
def dispatcherNetwork (d : Deployment) (image : Dispatcher.Image) (outside : Outside d.self) : Network State :=
  networkOf d outside (Dispatcher.poolCode d image)

def referenceNetwork (d : Deployment) (image : Dispatcher.Image) (r : Reference.Immutables) (outside : Outside d.self) :
    Network State :=
  networkOf d outside (Reference.poolCode d image r)

/-- The chain with the hand-written Yul pool on it. -/
def monolithNetwork (d : Deployment) (image : Monolith.Image) (outside : Outside d.self) : Network Monolith.World :=
  networkOf d outside (Monolith.poolCode d image)

/-- A chain on which the Yul pool's constructor has left `world`. -/
def monolithLaunch (world : Monolith.World) (eth : Address → Nat) : Ledger Monolith.World where
  chain := { pool := world, eth, paid := [], approved := false, payer := none }
  stack := []
  tx := none

/-- A chain on which the pool has just been deployed. -/
def launch (eth : Address → Nat) : Ledger State where
  chain := { pool := genesis, eth, paid := [], approved := false, payer := none }
  stack := []
  tx := none

namespace Hegota

/-- The pool of the recorded self-paying run on the Hegotá devnet. What follows are the answers
of the libraries to the calls of that run, and its transfer. -/
def address : Address := 0x0d4ff719551e23185aeb16ffbf2abebb90635942#160

def source : Word := 0x0b02548f77daefd492dc83dc25cd5289bbaa4b3360d1a54256afe8cb86473c7b#256

def inner : Word := 0x2dbb6517aacdd5efb9f76038024b535919bf021a854eb09e549cfa03bddecdd4#256

def shieldValue : Word := 100000000000000000

/-- The commitment of the shield of the run, and the nodes above it in the tree of it alone. -/
def nodes : List Word := [
  0x08afd1e2cbe300c203d15bf283252fe93403a3cc8e7434ba90ac67ab64eb2500#256,
  0x0d36b8823df2bc8514859359be9cf030eafae8350b7f98837a7f345efa39325c#256,
  0x160f685512a35d2225e8326ce83307d91d0ca631a18bd19cbb26f63487aff81c#256,
  0x1df9ce45089b1548f6ea3668d796c2ca7a384350668cd9f65d4cd2a8b36be767#256,
  0x304667168120c24ce11c728ece9e978cbde1251cb023ea3277090404f7906cb0#256,
  0x0cfdc2dd2c41eb91e100a1501cd12d5737b34d2ec33b5fe0612618581f07a31f#256,
  0x04abff7a2b8d3ddd7729efe82814d8b399748f0db45a6cc9229fe7160f49d549#256,
  0x1162a65076a458105f53728648bedb3cf2b8d62e745259d0d7c54e831acfc4cc#256,
  0x2d85af0a9b68a8634540fde6cd6769f9081965be0cd744a350afd098db02a5e0#256,
  0x10452004ab6dc69281e615d6c58ae9efa3ffb83a12607ebd0ebf19f1346b23b1#256,
  0x2053ec10b3e59a7bed1da85591f0516810873b63384886e772b720cad80373c9#256,
  0x056f07eb942ae2172d0725ef84f9cd15189c09a359f26040a57d182e14da456f#256,
  0x16090eb3b465b1686c4df63da959f142774e0a7ec18a9ed798e2b29e6629aadf#256,
  0x1f937f1bedffa754a1b42de342afdcb317e99b7a79393e2ffd9ce7fb33c74563#256,
  0x12f2313e194ce2eb3b63877f014e5fe1b2c6fbbaee3cdaa43cb3e4a5dfa01fbb#256,
  0x138183597f82354b6afbd2ebf3e1ee0ac1a01e93a1d3adc03d0fc3219773039c#256,
  0x0fd38cd62e63d47db47407fb8770b981f8afc7335e053534effa8bb205e0fa96#256,
  0x1316fbc031268d87bcce8b963951235df9706146f9329f9cb5f91b5f3708173e#256,
  0x1bf769a9c14f826152b7ed71e2a12392eb38e0d3ca09a10514997d749b97d3b2#256,
  0x20cf403a9d820fc1e894c710adc2dda1e5862cf788133d8267612923f22be18c#256,
  0x10f327408e4b485f7acc4435e7209c5fa488f83b3368f05164e1476c71369222#256]

def node (l : Nat) : Word := nodes.getD l 0

def transfer : Spend where
  root := 0x10f327408e4b485f7acc4435e7209c5fa488f83b3368f05164e1476c71369222#256
  domain := 0x10c96d6658ae3abe6189dbc063e7b93dda88cc4527850d43cb12e344b1aa755c#256
  nf1 := 0x0eae9c1fc7d8af2d97ff18c5d9388ebf73bcb131bd4c108d3a153c0488e5baeb#256
  nf2 := 0x02c43a0f71b0fbcd933c4ff5ba33ee72b69579e3c5799034c2d2e36e11f33767#256
  outCm1 := 0x06b9247f4df056cfb81e9433120db72e5303d49bd3b32f637d8ad8febabdbf57#256
  outCm2 := 0x11630c21df2d741ad8937275eedad8a268575cccc3e4ec6a6830daee4883507a#256
  publicAmount := 0
  fee := 40000000000000000
  ctx := 0
  pA := (0x040ce099bbc6b2cf09301a0e5a2a1e7a9aec1dc4b9e082d8996611c355ea4c7c#256,
    0x033279d30d0180b6d2081191d908c02c778b083add3552482af413bc73eb888c#256)
  pB := ((0x1a9d53a8bb0d6b3147c1f424fcd41308cc28296bd8c278ec6b1264432cc89d44#256,
      0x11cdff69145fb1c0cd56b19b8232b07e6560a07b1823f99a0dc3e0cdbd9b87d8#256),
    0x0e8794f488375bf87f350d91da4be6e1bf1e9cd96ec53d2e62fef8bcd4dc5f7a#256,
    0x15696b294244f38f9a0d2eb28fa729533357467bd0fcb00e198406b2602946ec#256)
  pC := (0x2d96b5c01511f2883e587687bc1f1e512079e9acd84d8c5c460391c97d4be51c#256,
    0x17bf03e1d56e4eee10c3ff8ab9e08b879ff0d2ac530f2d9043cbd6c3fe625357#256)

/-- The nodes above the first three leaves, from level 2 on. -/
def laterNodes : List Word := [
  0x1e5a31065b0f83580423be11f62c43c3916dc092449f529df204e0367990d063#256,
  0x28c99c99b755378862cd46da1ac097cd574bbeff283cd219cb23aa7ab9f43187#256,
  0x2367417a3793335d536a0c033321ae2efded388280f845c6f60b9b7b7006bd8f#256,
  0x0fe69ddda4974975ad7afffcffe82d7252e17d4b094213961e9df5af8dcd2302#256,
  0x159b7da9ffa463b54ad5bb1a1b3a597de32b0500e542563e0b0509840f31a861#256,
  0x1186d15169b5be78a6db929d048c7073b1483d83f5efd16ce9c383cce9ce7966#256,
  0x04b55e0f69b8154a285d4efe459c39246e3691ef10994cdb76182e85d721765b#256,
  0x0d522afef7a9fda34d577741ec58b901c811566c9c58be3a1cf64af1046d2ebd#256,
  0x272f18ea8e329df67066e52c9308ab5d15436539c4f0919ddb2a1039c7fd9985#256,
  0x0b5834605a17298803c521164c01ba0b42ac4af0a275f93873ba65afd903dc39#256,
  0x19039fce83a165b66a13939964c990221af3fa13966c17579dbc6c6448f3af5b#256,
  0x1342d4c8e0b73d096c5e5a113394c8e1eefe8d8d1335690be31f9f0c49c9b68f#256,
  0x07df962079bb94fba88a2adc69003c744706124bd7b9e3cd6957980a24c85082#256,
  0x0fdc37c97daeaf4bae92cfee955c18e67885ca00be850f9ba298b3652ff03c8a#256,
  0x0bad399e0a0688a1abeacc2858e5510594c6d74d44eb07a1eb7be4e689044fb9#256,
  0x20a82c474533261ca034e0cb66d984c177223e86c81d2e88b77bcda5542c36f3#256,
  0x20a78f2d5029b312dfa2ff2d1dbb2cba890462f491bc50661c27c224b43b0e9a#256,
  0x06f2fd0daccc4185b12b65376c3fa91a5022489bf1ed4a7b63bbf0474723ea36#256,
  0x25046d44b2ba3caa79830a7577348773b7f14c5e0504d0332dc02222bb44930d#256]

def laterNode (l : Nat) : Word := laterNodes.getD l 0

def leftPair : Word := 0x17e56fa6735246dfa27967da745fdcf883c0fc44f30bb02f80718ab70a5f2928#256

def rightPair : Word := 0x03e942da7c1597df1995cce376d56f3e1b215515f8f28ededb2d69af8191399d#256

/-- Calls of PoseidonT3 and their answers. -/
def pairs : List ((Word × Word) × Word) :=
  (List.range depth).map (fun l => ((zeros l, zeros l), zeros (l + 1))) ++
    (List.range depth).map (fun l => ((node l, zeros l), node (l + 1))) ++
    [((node 0, transfer.outCm1), leftPair), ((transfer.outCm2, 0), rightPair), ((leftPair, rightPair), laterNode 0)] ++
    (List.range (depth - 2)).map fun l => ((laterNode l, zeros (l + 2)), laterNode (l + 1))

def deployment : Deployment where
  self := address
  chainId := 3151908
  probe := 0xe6b98f104c1bef218f3893adab4160dc73eb8367#160
  verifier := 0x712516e61C8B383dF4A63CFe83d7701Bce54B03e#160
  keccak := fun data => if data = encodeWord address.word ++ encodeWord salt then source
    else if data = encodeWord domainTag ++ encodeWord 3151908 ++ encodeWord source then
      0x71920a4c1b117b11d22a672d66ea69f82af09cd61af7ee6652d6ce6c91aa755e#256
    else 0
  hash2 := fun a b => (pairs.lookup (a, b)).getD 0
  hash3 := fun a b c => if a = 2 ∧ b = inner ∧ c = shieldValue then node 0 else 0
  verify := fun data => data = transfer.verifierCall

def verifyFrame : Frame where
  mode := .verify
  flags := 3
  target := address
  gasLimit := 350000
  value := 0
  data := []
  short := by decide

def settleFrame : Frame where
  mode := .sender
  flags := 0
  target := address
  gasLimit := 10000000
  value := 0
  data := selectorBytes Method.transfer.selector ++ encodeWords transfer.words
  short := by
    rw [List.length_append, length_selectorBytes, length_encodeWords]
    decide

def transferTx : FrameTx where
  sender := address
  frames := [verifyFrame, settleFrame]
  nonceKeys := [transfer.lo, transfer.hi]
  nonceSeq := 0
  refs := [⟨source, 191883, transfer.root⟩]
  signatures := 1
  blobs := 0
  maxCost := 10384588145384232
  fewFrames := by decide
  fewKeys := by decide
  fewRefs := by decide

def payFrame : Frame where
  mode := .verify
  flags := 1
  target := 0xcc#160
  gasLimit := 100000
  value := 0
  data := selectorBytes 0x8cc8fe8d#256 ++ encodeWords transfer.words
  short := by
    rw [List.length_append, length_selectorBytes, length_encodeWords]
    decide

/-- The same transfer in the three-frame form, with the account at 0xcc paying for it. -/
def sponsoredTx : FrameTx :=
  { transferTx with
    frames := [{ verifyFrame with flags := 2, gasLimit := 300000 }, payFrame, settleFrame]
    fewFrames := by decide }

def image : Dispatcher.Image := ⟨[], 0x5C7c905B505f0Cf40Ab6600d05e677F717916F6B#160⟩

/-- The block that takes it. -/
def block : Block := ⟨191889, fun _ => true⟩

/-- The protocol's entry point, and accounts that are free to act but approve nothing. -/
def outside : Outside deployment.self := ⟨0xaa#160, by decide, fun _ => True, fun _ _ _ _ => False⟩

end Hegota

end ShieldedPool
