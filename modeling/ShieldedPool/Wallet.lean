import ShieldedPool.Circuit
import ShieldedPool.Settlement

/-! The off-chain side: `Tree` of wallet.py, which rebuilds every level of the zero-padded
tree, `seeded_tree` of gen_nonce_race.py, which fills it from the pool's LeafAppended events,
`build_witness` of wallet.py, which prepares a spend for the circuit, and `spend_entry` of
gen_smoke.py, which puts it together with its proof. -/

namespace ShieldedPool.Wallet
open Evm

structure Tree where
  depth : Nat
  leaves : List Word
  zeros : List Word
  deriving DecidableEq, Repr

variable (p2 : Word → Word → Word)

/-- The loop that appends `p2(zeros[-1], zeros[-1])`, with its last element beside it. -/
def zerosFrom : Nat → Word → List Word
  | 0, z => [z]
  | count + 1, z => z :: zerosFrom count (p2 z z)

def Tree.init (depth : Nat) : Tree where
  depth := depth
  leaves := []
  zeros := zerosFrom p2 depth 0

/-- `append`; the assertion fails on a full tree. -/
def Tree.append (t : Tree) (cm : Word) : Option Tree :=
  if t.leaves.length < 2 ^ t.depth then some { t with leaves := t.leaves ++ [cm] } else none

/-- One round of `_levels`: `for i in range(0, len(level), 2)`. -/
def nextLevel (zero : Word) : List Word → List Word
  | [] => []
  | [left] => [p2 left zero]
  | left :: right :: rest => p2 left right :: nextLevel zero rest

/-- `zeros[d]`. -/
def Tree.zeroAt (t : Tree) (d : Nat) : Word := t.zeros.getD d 0

/-- The levels from level `d` on. -/
def Tree.levelsFrom (t : Tree) : Nat → Nat → List Word → List (List Word)
  | 0, _, level => [level]
  | rounds + 1, d, level => level :: t.levelsFrom rounds (d + 1) (nextLevel p2 (t.zeroAt d) level)

def Tree.levels (t : Tree) : List (List Word) :=
  t.levelsFrom p2 t.depth 0 (if t.leaves = [] then [t.zeroAt 0] else t.leaves)

def Tree.root (t : Tree) : Word := ((t.levels p2).getD t.depth []).getD 0 0

/-- The loop of `auth_path`; each step is the bit and the sibling. -/
def Tree.authPathFrom (t : Tree) (levels : List (List Word)) : Nat → Nat → Nat → List (Bool × Word)
  | 0, _, _ => []
  | rounds + 1, d, idx =>
    let level := levels.getD d []
    let sibling := idx ^^^ 1
    (idx % 2 = 1, if sibling < level.length then level.getD sibling 0 else t.zeroAt d) ::
      t.authPathFrom levels rounds (d + 1) (idx / 2)

def Tree.authPath (t : Tree) (idx : Nat) : List (Bool × Word) := t.authPathFrom (t.levels p2) t.depth 0 idx

/-- `leaves[idx] = cm` on a dictionary. -/
def assign (dict : List (Nat × Word)) (idx : Nat) (cm : Word) : List (Nat × Word) :=
  (idx, cm) :: dict.filter fun entry => entry.1 ≠ idx

/-- The dictionary `seeded_tree` reads off the logs. -/
def readLeaves (logs : List Event) : List (Nat × Word) :=
  logs.foldl (fun dict e => match e with
    | .leafAppended cm index _ _ => assign dict index cm
    | _ => dict) []

/-- `for i in range(len(leaves)): tree.append(leaves[i])`; a missing index is an error. -/
def fill (dict : List (Nat × Word)) (t : Tree) : List Nat → Option Tree
  | [] => some t
  | i :: rest => do
    let cm ← dict.lookup i
    let t ← t.append cm
    fill dict t rest

/-- The rebuilt tree, if its root is the pool's current root. -/
def seededTree (depth : Nat) (logs : List Event) (onchain : Word) : Option Tree := do
  let dict := readLeaves logs
  let t ← fill dict (Tree.init p2 depth) (List.range dict.length)
  if t.root p2 = onchain then some t else none

variable (p3 : Word → Word → Word → Word)

def ownerPk (spendKey : Word) : Word := p3 1 spendKey 0

def inner (spendKey rho : Word) : Word := p2 (ownerPk p3 spendKey) rho

def commitment (spendKey rho : Word) (value : Int) : Word := p3 2 (inner p2 p3 spendKey rho) (BitVec.ofInt 256 value)

def nullifier (domain spendKey cm : Word) : Word := p3 3 (p2 domain spendKey) cm

/-- An input of `build_witness`; a dummy has no index. -/
structure Input where
  sk : Word
  rho : Word
  value : Int
  idx : Option Nat

/-- The recipient as one field element: its hex digits read as a number. -/
def ctxForRecipient (recipient : Address) : Nat := recipient.toNat

/-- The circom input map. -/
structure Witness where
  root : Word
  domain : Word
  inSpendKey : List Word
  inRho : List Word
  inValue : List Int
  inSiblings : List (List Word)
  inBits : List (List Nat)
  outInner : List Word
  outValue : List Int
  publicAmount : Int
  fee : Int
  ctx : Nat

/-- The path of an input, with zeros for a dummy. -/
def Tree.inputPath (t : Tree) (i : Input) : List (Bool × Word) :=
  match i.idx with
  | none => List.replicate t.depth (false, 0)
  | some idx => t.authPath p2 idx

/-- `none` where an assertion fails. -/
def buildWitness (t : Tree) (inputs : List Input) (outputs : List (Word × Int)) (domain : Word) (publicAmount fee : Int)
    (recipient : Option Address) : Option Witness := do
  guard (inputs.length = 2 ∧ outputs.length = 2)
  guard (∀ i ∈ inputs, i.idx ≠ none ∨ i.value = 0)
  guard ((inputs.map Input.value).sum = (outputs.map Prod.snd).sum + publicAmount + fee)
  guard (∀ v ∈ publicAmount :: fee :: inputs.map Input.value ++ outputs.map Prod.snd, 0 ≤ v ∧ v < 2 ^ 128)
  some {
    root := t.root p2
    domain := domain
    inSpendKey := inputs.map Input.sk
    inRho := inputs.map Input.rho
    inValue := inputs.map Input.value
    inSiblings := inputs.map fun i => (t.inputPath p2 i).map Prod.snd
    inBits := inputs.map fun i => (t.inputPath p2 i).map fun step => step.1.toNat
    outInner := outputs.map Prod.fst
    outValue := outputs.map Prod.snd
    publicAmount := publicAmount
    fee := fee
    ctx := (recipient.map ctxForRecipient).getD 0 }

def inputNullifiers (domain : Word) (inputs : List Input) : List Word :=
  inputs.map fun i => nullifier p2 p3 domain i.sk (commitment p2 p3 i.sk i.rho i.value)

def outputCommitments (outputs : List (Word × Int)) : List Word :=
  outputs.map fun output => p3 2 output.1 (BitVec.ofInt 256 output.2)

/-- The coordinates of a proof, as `soliditycalldata` prints them. -/
structure Proof where
  pA : Word × Word
  pB : (Word × Word) × (Word × Word)
  pC : Word × Word

/-- `prove` of gen_smoke.py: the public signals and a proof for them. -/
abbrev Prover := Witness → Option (List Nat × Proof)

/-- `spend_entry`; `none` where the proof's public signals are not the wallet's own. -/
def spendEntry (t : Tree) (domain : Word) (inputs : List Input) (outputs : List (Word × Int)) (publicAmount fee : Int) (ctx : Nat)
    (publics : List Nat) (proof : Proof) : Option Spend :=
  match inputNullifiers p2 p3 domain inputs, outputCommitments p3 outputs with
  | [nf1, nf2], [outCm1, outCm2] => do
    let root := t.root p2
    guard (publics.map Int.ofNat =
      [nf1, nf2, outCm1, outCm2, root, domain].map (fun w => (w.toNat : Int)) ++ [publicAmount, fee, (ctx : Int)])
    some {
      root := root
      domain := domain
      nf1 := nf1
      nf2 := nf2
      outCm1 := outCm1
      outCm2 := outCm2
      publicAmount := BitVec.ofInt 256 publicAmount
      fee := BitVec.ofInt 256 fee
      ctx := BitVec.ofNat 256 ctx
      pA := proof.pA
      pB := proof.pB
      pC := proof.pC }
  | _, _ => none

/-- The map as the witness generator reads it: every number modulo the field order. -/
def Witness.inputs (w : Witness) (depth : Nat) : Circuit.Inputs depth where
  root := w.root.toNat
  domain := w.domain.toNat
  inSpendKey k := (w.inSpendKey.getD k 0).toNat
  inRho k := (w.inRho.getD k 0).toNat
  inValue k := w.inValue.getD k 0
  inSiblings k l := ((w.inSiblings.getD k []).getD l 0).toNat
  inBits k l := (w.inBits.getD k []).getD l 0
  outInner k := (w.outInner.getD k 0).toNat
  outValue k := w.outValue.getD k 0
  publicAmount := w.publicAmount
  fee := w.fee
  ctx := w.ctx

end ShieldedPool.Wallet

namespace ShieldedPool.Circuit.Poseidon
open Evm

/-- `p2` and `p3` of poseidon_bn254.py: the same hash on canonical representatives. -/
def p2 (poseidon : Poseidon) (a b : Word) : Word := BitVec.ofNat 256 (poseidon.two a.toNat b.toNat).val

def p3 (poseidon : Poseidon) (a b c : Word) : Word := BitVec.ofNat 256 (poseidon.three a.toNat b.toNat c.toNat).val

/-- A hash by a table of its values, zero beside it. -/
def ofTable (pairs : List ((Word × Word) × Word)) (triples : List ((Word × Word × Word) × Word)) : Poseidon where
  two a b := ((pairs.lookup (BitVec.ofNat 256 a.val, BitVec.ofNat 256 b.val)).getD 0).toNat
  three a b c := ((triples.lookup (BitVec.ofNat 256 a.val, BitVec.ofNat 256 b.val, BitVec.ofNat 256 c.val)).getD 0).toNat

end ShieldedPool.Circuit.Poseidon

namespace ShieldedPool.Wallet
open Evm

namespace PoolChain

/-- The note of `pool_chain` in poseidon_bn254_vectors.json, here the first leaf of a pool. -/
def note : Input where
  sk := 0x00000000000000000c9be9ff0e871e96e031dfd0cbe11f7a888837ea27ee7f34#256
  rho := 0x0000000000000000bc2286c9cd184b8bc4a04e701317d18a4cd9ae63ad2170d4#256
  value := 171028078353806246377624262744011790529
  idx := some 0

/-- What is spent beside it has the same secrets. -/
def dummy : Input := { note with value := 0, idx := none }

def domain : Word := 0x00000000000000004618ff0eb55c3b504c4b0c2400ea7dae5331643b1e7394a9#256

/-- The first output takes what is recorded, the second the rest. -/
def outputs : List (Word × Int) :=
  [(0x0000000000000000a0ce605c12a8b847a458031d7bc6858b7405edc0e1b3a2bd#256, 53004325149485544038726009085840162477),
   (0x00000000000000003f371579be274bff5df235de985595ff0de6fdf3a593e91d#256, 118023753204320702338898253658171628052)]

/-- The note's leaf and what it climbs through beside empty subtrees. -/
def nodes : List Word := [
  0x17ed9b57c11cbccc593bea039aa0120b06dc1d35ff55fb8fdcc618cac857b42c#256,
  0x06b14080052242cde3c5c268e4c82e54abbcc0c5a021e09a445467c83de96be6#256,
  0x14c9e1b64739e9bf876320c046308ded16bdeda28ca384e69c8cf198ebe20100#256,
  0x16b088d7f589fa78193f63a28a834a391886a19179a940da1e39473e90efcbd6#256,
  0x0a128ae8e2fb8d380ae0522ca627e7182b61f7cf3a91d75a176222aa7fc58c96#256,
  0x1c1c8ab10bf1572d7bc7496f3c3a253f0255676cfc873d6a195d477eb4b45003#256,
  0x2b63358b471015b33bbaeffa7849db3e1427a44d33926c3ed5b99fa284225266#256,
  0x10cb0da4d6de24ef851b2aa636c32aaa2f37bf42dac351ab4b8ca86fa1ff8af4#256,
  0x20682b8b39f535d4460dc8287adbce943343298e25b5a82e1ad877c83aa404d9#256,
  0x0c0e6f6d19d2642ca00e0699a04706531208ed76d8a2d78868524e605882b752#256,
  0x21eb3adc9950cc7493afcf6f69359de4a3bf38691beb0998e12213e9cc3fa050#256,
  0x2f5c696e3ba87e9f7116c447547914bae55aa6d9168a9e8280af3648237acd47#256,
  0x268052e8f28245f4d089fc2f462316fcd8f233f40d45032def4c125415701844#256,
  0x2682994a35f7816629759c76a219802500e5c6efd1e81dbbc0eceef50b88cd55#256,
  0x1836264c2eb8376d9dbf68e8df31b3f73030979590d429e76b0e4e0763344422#256,
  0x2e8b515be90e7dd6f1f485dc63133cd2a594d5f19c28d5f6095bad84c18ce968#256,
  0x0ab161cf0bf06580a96919305fea6da11df4d8d868622bd96bf1e625f17b01f8#256,
  0x264256c2101c93f4a593b0d05b02fc136aba77efac51869479dac3f4d668cb39#256,
  0x2d920c8ef440e4ac732ce6436d132192b99028fd0ca89727e8e3f547a8b717ca#256,
  0x277bd6fa924f1d2f2fc856ef14d0b2f9072d2eb058d1f0b7696118eff67bf9b8#256,
  0x1cab4a79403e084a922f997d47b2e4b41f62f917ebe6cc49cfcda79b89777be2#256]

/-- The same for the dummy along a path of zeros. -/
def dummyNodes : List Word := [
  0x163c7a4009ca640987c5cf0b795999d5d7f268f4eaa839607ca3d717f1c4aeb2#256,
  0x0e451c72444c2ccdb25747e40e29fc391ffb86f2c26bfda174cfee302a47c47e#256,
  0x166c18627f88c699912cbac0797d4f79b88b52848af448141981e9be12360c99#256,
  0x2a21d4fa831c7ac3aefb5257cdab2b1d6ff3faed0e4d915d3ba1d1e25ceac863#256,
  0x13b6ca0e6282ad8d6f2a2779af386e845a07fcc21bbc6c98f7c22d57e8b7f078#256,
  0x0a116127be040150442ece2abfedf71d710f8fa79a5e44068c493bab82144b1c#256,
  0x193ceaca2d6b11f46cd1d97d973716945b15e0b6e4c285d16438d3001965ef35#256,
  0x19dbb04e4f11e883d9f79d7eb8f5927936f6c65c750c80221fefa1e67505f4b6#256,
  0x1194b9899bfd865e3acb092194f21bdf017fe91382ac11fc98118fbf7bd66049#256,
  0x09b5a9972b8e2cb3742dbca5c92b5654abce9ee46a0f08d83f069ab2fc997ed1#256,
  0x26b8803cb606bb5d4df24dcad05e6238b641bf5f2840aca6c6a50330d6cb651f#256,
  0x21172aa2e93cec52bc68e634e8b9372379832fae9aa4394e9b6f17a509ec8873#256,
  0x001d367e4369c082cacca0b2eb05c67a22406c93f5d7808c2037081982e4df00#256,
  0x1518f9dcf91bef864cc4bfac7e3a032945b4b9762f9768d811edde5a004194c0#256,
  0x29cb3c0cfb27a6c217d3b67de82aa1c2a845ac67bda6b196aee36043d2bcc1c8#256,
  0x0400c37e2e628df18b0698643960ed4ca4f35c8e408fdb61ed9b2c4da67b2454#256,
  0x1126e49d73914f639df81a8b21f24d175242805640d0ce464b4b85bd7fc0b088#256,
  0x2b97e99cae542856d13d7cba6373f094f17e7b24df345de65a0a28d46c38bb8b#256,
  0x2e97fc93296c0f295cfedebc5c837ad306e79c19ddd6f1a14519be4b824839d9#256,
  0x1f8af7cd90006171214a212bb0703338f59eab296210a1f2cedb013738b9a772#256,
  0x143e7188f01d599dac9d3683487db71be18a3d11dbf2220fe94da117381043a3#256]

def ownerPk : Word := 0x024c96b55babdaeee3f25446c1ad7a44c5f34580564c957a144fb20ee7ff706d#256

def inner : Word := 0x1eb535bf11eb1e647cf5838e646301a517f80305b83234ea1e8b4707c2ce325c#256

def domainKey : Word := 0x0b877da57238224cd52225a9e466ffa496368778458bc009743ff9d7e8b9cec2#256

/-- Calls of `p2` and their answers. -/
def pairs : List ((Word × Word) × Word) :=
  [((ownerPk, note.rho), inner), ((domain, note.sk), domainKey)] ++
    (List.range depth).map (fun l => ((zeros l, zeros l), zeros (l + 1))) ++
    (List.range depth).map (fun l => ((nodes.getD l 0, zeros l), nodes.getD (l + 1) 0)) ++
    (List.range depth).map fun l => ((dummyNodes.getD l 0, 0), dummyNodes.getD (l + 1) 0)

/-- Calls of `p3` and their answers. -/
def triples : List ((Word × Word × Word) × Word) := [
  ((1, note.sk, 0), ownerPk),
  ((2, inner, 0x0000000000000000000000000000000080aacf4b5594a9f6844798aa3d5958c1#256), nodes.getD 0 0),
  ((2, inner, 0), dummyNodes.getD 0 0),
  ((3, domainKey, nodes.getD 0 0), 0x1bede7b0f3926173a49986395d8a32923c1fabdc816f4119d1faaccf3f96d596#256),
  ((3, domainKey, dummyNodes.getD 0 0), 0x28a0c6d346135286d6b29bf17b68c8c73f2f57048eea8f803561656650f18cba#256),
  ((2, 0x0000000000000000a0ce605c12a8b847a458031d7bc6858b7405edc0e1b3a2bd#256,
      0x0000000000000000000000000000000027e042feb0574d708d43f70efb0d7ead#256),
    0x14d3d24d7483b70393ecc26cc171b5579ba653713608ff58cf90b508cca192aa#256),
  ((2, 0x00000000000000003f371579be274bff5df235de985595ff0de6fdf3a593e91d#256,
      0x0000000000000000000000000000000058ca8c4ca53d5c85f703a19b424bda14#256),
    0x172ae50d1eeb693a37174a8c89d45f5eb6c3c11bd96f5c1f06241d9cd4d62d8e#256)]

def poseidon : Circuit.Poseidon := .ofTable pairs triples

def tree : Tree := { Tree.init poseidon.p2 depth with leaves := [nodes.getD 0 0] }

/-- The input signals of that spend. -/
def inputs : Circuit.Inputs depth where
  root := (nodes.getD depth 0).toNat
  domain := domain.toNat
  inSpendKey _ := note.sk.toNat
  inRho _ := note.rho.toNat
  inValue k := if k.val = 0 then note.value else dummy.value
  inSiblings k l := if k.val = 0 then (zeros l).toNat else 0
  inBits _ _ := 0
  outInner k := (outputs.getD k (0, 0)).1.toNat
  outValue k := (outputs.getD k (0, 0)).2
  publicAmount := 0
  fee := 0
  ctx := 0

end PoolChain

namespace TwoSpends

/-- A key that owns one deposited note and three notes without value. -/
def spendKey : Word := 0x7a91#256

def ownerPk : Word := 0x2648f6b03b1a0af280b6828b325fd8974ae9582f73476f6942b1f42dd6fef631#256

/-- The domain of the recorded run. -/
def domain : Word := 0x10c96d6658ae3abe6189dbc063e7b93dda88cc4527850d43cb12e344b1aa755c#256

def domainKey : Word := 0x1a24510969b3cb266f52912e1ee1a87cfd4db3820d9ed7764d3265a9cc6cba16#256

/-- The secrets of the four notes. -/
def rho : List Word := [0x101#256, 0x102#256, 0x103#256, 0x104#256]

def inner : List Word := [
  0x11548cbadcfc7a4bae3193b6e37dfd89011ba54ace39b0803d302710379feafd#256, 0x2cc32c9fb0622729cb0f655ce17e2ce4afb394693e124431ee08292169166b57#256,
  0x2a0a581793286f1cf32a461ec7dab5e54cc658b3335abee2c6a8ecd20ee47e8b#256, 0x27811d8bad13293cd02a42ddd4ac9f20a8efaa936c4efd6fcc2dd64252965236#256]

def leaf : List Word := [
  0x1a9e50430aa85b785df87195e97c1e7690194406755aae7a693796d94db5cf24#256, 0x203c2ce5c77598407ec90a1f7a8bf7aafe4e1c85e8cb07425739d534a6d578a4#256,
  0x11828783a8135883ecf65a2b1d9db0e73dfd8aaa4b05255c410946d20fca3b6e#256, 0x0273a5e5ea8ccf2ae852503db44e3ca25d1e9c08079e61c96532c2432fa4b7a4#256]

def nullifier : List Word := [
  0x06d1cdc1a9e2f58aa1cc2bb27a31ef773014a34c861285334554292822975625#256, 0x29ff8ce5c3d06cef0d4509bfebaacff3beb283c6cd9a4cb5f87a4bc1b7cb59fc#256,
  0x242fe2f2369f825f0b622425694f1728b52e4a8c7261cae0cd684e868924180c#256, 0x28cab4b635c05688363f9cdc84c7f9f9ffec6985a4b1fd5ece8f32a21c8485a3#256]

def value : Word := 100000000000000000

/-- The leaf of what is left of the deposit. -/
def change : Word := 0x13629c3d21df1b6b5b0f0eb8a9cf8958c8c624749679ed25d3670e784c95c61b#256

/-- The parent of the change beside an empty leaf. -/
def changeAlone : Word := 0x06f507428c92f7c896466c895c220386542d424571544f024fd1e404859013ce#256

/-- What the deposit climbs through as the only leaf. -/
def nodes : List Word := [
  0x1a9e50430aa85b785df87195e97c1e7690194406755aae7a693796d94db5cf24#256, 0x24f4a096a66e8f176ee9f2bd9e15b616ec3d6cf8437c47f68d9d9ab9284b8528#256,
  0x2796fbb91c4b86242719ab295a0519991bf3c7067c19750f9bc45ae7acb05b22#256, 0x10f43bb3cb7c4a5424934d7fd1d69d5c48d35cd897c9d3c67da618cecd27ee6d#256,
  0x2ad4ef20e95a84eea33670d3ecef35043976f148972c4839eb681caf080cf8f9#256, 0x29568ea7d9ca1b9ab37bbe6153a989d9ecf2392ee16c0b45723b5d1245f62973#256,
  0x0bfdaae3875cc6b5c4f3c073c7ef4557b2ff694f72093487c04ee9d5d2f844fe#256, 0x0fe32cd6c51567433c134f25c589c85bc36e34b608bbaa9a9068fb0c8fbf8cb2#256,
  0x28c094db5b6eb3507721e1c553262f6a8d03332b100623c9606a327477f135f5#256, 0x222cfc0ba34b1dc824b37a09e227b6b526da7824df523941ff61a2c6adb5c8af#256,
  0x2555346e94ccefc8a43b2fba53efc266dcd61435c2619bef7ca6e7692abdd961#256, 0x071c647bed59f944af630a59b6aecba78e8869b0a09cc0452ad8c944fe90fc4b#256,
  0x22451810cece7aa0514189e344afcb2f6c50c067585a53500dfddcee7fdd8ac2#256, 0x2d23dcee7f7ff0b0e6c02d88228f4e359294b270e06369aa78eb21e54236aa97#256,
  0x22d61e8949947c616d13422470b985adecc07224df63b807d62cdebadf12206a#256, 0x1d8765a52037bb61b8c2bb0d4804ee4c2194c2a4a56acedddf4ab9eb888960e2#256,
  0x0a1d00893104862dac99ba2245a9b8474ce214246425f93d7e2c7956a16f0ae8#256, 0x046c1215dfa778b5f2e548fadb4a28c8e1fea6de78c2bf693483e3b9235a707b#256,
  0x17b7ed1e8ff957bed86d9181e2f976aeda1faa8988a5669776ec253e1ef11ad9#256, 0x0a788e65a42b5e8d3ec15fcdadd4faf9d5b0f52d2f1934c757cd8ca689de273f#256,
  0x17996159bc4e4f337914d6d77dc51587ed3f38bbbbfa4d6fff16a97de05eab95#256]

/-- What it climbs through beside the change. -/
def changeNodes : List Word := [
  0x23e1dbe3063b6d2481c0ef41257cca7b8a0be021e5b2ccf53acca963bcfc1428#256, 0x0fbc0a2463fa36f20a73dfbd371563b56f45680e9963f52f155439dc944716f1#256,
  0x02ccf897a6e9b80ad2f82e9561767d89525742f58836a8ef113a9e5d1f6f5363#256, 0x03217aa997f9705c1ab015811ca8f26da0ec159b67beabecfbb5a4f4328f071f#256,
  0x182a349cc2762e0ae0022635084673ab575b386b3dabc288e8b380231f66d002#256, 0x1e381edaf35b83963f8c4c85f19476b2ba4f0af7bea82e1c58af9950ddc3f434#256,
  0x23327f541ad9f813fe7e84f008c13c3637f9275bc57bbbb54a50a5d2f6576feb#256, 0x27f8479f5e8f405953cfe61e2cc4ae005ffed5aa097eef566668ad938d4840f8#256,
  0x2504895e9dcb3bee435e2572380163660a31cb681abe75016f477a2494b0b324#256, 0x08a4035927fdec3cb232b49bd08376562b4c4635ea0822f053babe2a3e040b84#256,
  0x0e23b781dc5698febe9a84850de670c56bdc19f9a62acac119c66a38c036628c#256, 0x146d3c233ed2015a0e1974fe3ead469523edd7dc3e3b87c218412f5cd168c3e0#256,
  0x0668f26ec65b07b4af56814b93863e5fbf048c3227a6e96baea3c2c7364145a7#256, 0x0e3ce6507ed09130dfd9eda6204054ecb849c626352ad5fbbd7564b2786c26e4#256,
  0x10a94b5578287d3b98e3d65b07444842f34dbe963e1df0b12e9f8a1d66d8a3cd#256, 0x0aff75fb359aadb58354f7f970563818254b99cb671bbefb8f140243887537f6#256,
  0x2ed87e1014b3ee08159597e7ca2b8f04e3e9c4bb362ee0f511b1c18c9e8ae4f0#256, 0x1f7b6d83b79e76c306579e7b0a9d270029451b5fe38143a3d7aeeff4bba7fcdc#256,
  0x0568d17a8a4c5591429017023e869119131cc68aab8105217ffbbaf1fc9af5d3#256, 0x0c3e7f62b02538fb6159ebd4806c5a54523b4a746f4ecb9e31ebb5b84d691a0f#256]

/-- What their parent climbs through once the second note is the third leaf. -/
def changeFirst : List Word := [
  0x2403291afb1cc3dc3f217c6d2c1cf464b09c237e876e459607474d384ddb14ff#256, 0x134690b5c9337634be9e5c216bc094c80abfd393f96a08d389dc0b34483e642f#256,
  0x047ba5fb724fc912daede7381c1883a25cbefd285ef29c46540ae1407dcb8d8c#256, 0x0c3614e2de9b9d120ae64d6774dd4a6df5ae481ab2cad7c4c1b8800182a5bacd#256,
  0x2b7fc778bd958cb0273e5125b097c474f97d09173903c3bd38a3f4ed017b4df5#256, 0x21ea7cd3741b92b1284c56755a5a48a2b06bef9bb7d73ddeabf0bdc301e8dd3d#256,
  0x2ae2dcab56d8038b8f6502d729e1d89f4e93c169e925f8177ca7020d25381e90#256, 0x11422b75861ed189f95421aaecaa67f7ba4c10371e57db13a6f0ba11add49201#256,
  0x01d0966a407c94e8abb951e057dba12c036c3073e782a976e001c7f1277d5810#256, 0x19e589f5cbd17325bd737ea89d71ecd55f7a5dc3ad9f3ec9f4705527fc0fac99#256,
  0x074c35d1b134870d907080b7eff93a650533afeb12b29d61545727645ce35044#256, 0x0442915755c419bcd5f2ba4b306fe79c59d4723a008b228ad8f65c8504c0ba82#256,
  0x2ae619966c9e363ef4de6d55d0b70ce305f9e5c30c76dc328a592880112e805b#256, 0x0922af8c3cc594a831ee6ba1e94b7448ad43ebbeb2b3207a182893d59da8c9b4#256,
  0x2de7112cdf93a01ea87dbf175655fdc4a660f048df82d13a9821cbc22e020dd3#256, 0x21a7c06f1d868f4afa1c1e62251014ed62ddb303132e5ea0ef15cc8b5dc18256#256,
  0x2c293b2b605fcbe126bbf476209fd47db41a9d8fbd063a028e1df71fe0567935#256, 0x0f86e0733980cec0fbcea54c43c7d9d290c3a2a4354d31d8ac14ffbe07c760c2#256,
  0x23bdbbd16dddfb0b0141590e3cf4b91b8dff07e4218fb128f67111a578a922d5#256]

/-- What the deposit climbs through beside the second note. -/
def outputNodes : List Word := [
  0x15633bae63f5a52ec376e043debbd94c49cb633f5ffdd2f5b5079fa7d7ba75e7#256, 0x0beeab80d04162a091457947d937b8a64439936bad5d47ca70fb51584d343341#256,
  0x1992adbe871886f172bfa37560eefd562084f94ee4ed9153e4107b7c178095c6#256, 0x04f23d7863095e18b51f3a341edfc7956161154b4ffb3b63c3384ee14723ce65#256,
  0x193fc32ffae27da3ea371028caf17f97b92e738a171cb7363d7572dc9117892b#256, 0x15001bd99ef3cc3d4fac2445223252d0bdcd17872cb86c7d26f71916fcf12bdd#256,
  0x08bccf592fc5799ab3b907d9fdd633d971cf24087e3c642d32f2230da923b520#256, 0x201060873662e0aa5eab6b793f8041fcdc9b3c868a1829ac6f236767fa7780f4#256,
  0x1482e8fd1f3c03b7a66a71b0b73b49b4161c255a0ef508dc60145a997108cf2c#256, 0x0d219bd053b5c9eb127f7486ed8b01952c4874400f4daa0b31e4ff10752c69db#256,
  0x26909672167964f79fd10305e606a142368372a383b0c9ae572183dd0155cacd#256, 0x16cccca409862351248e1a7b954bdc4d5713925e37282998b707715fb76856ac#256,
  0x140c0337a12eec2f658bd3af31d8585c44b78d36ca435d65cd3dc1a2ba689ba9#256, 0x07d96b7f7f605573012809713eb5bb2de4205d37cd0eeb8b7f1c4f41c2876577#256,
  0x241c7187a8ade9188d18ec365dac6821cda58421d166567458968331d1c1a18a#256, 0x083c9ee398d4504420dd921f510b66d7c86f1e82c2ec2273432a0744f87202db#256,
  0x0ab183926a7397fea43b61184ac9709cb9be71990a53f75c1aedfe1cb2fa40fc#256, 0x205c95913d20947eb275004ee9849dcf3faa801a274104588d5a5bc47f95482f#256,
  0x1e828a701ce947d79f3279ded32739df050ac50085ffebbdc160c1235d97f979#256, 0x163da07dd5c7769ad6c5cb4f23a55fef9b9218259aa75e408b02192f969972a4#256]

/-- What their parent climbs through once the change is the third leaf. -/
def changeLast : List Word := [
  0x21d5b31f0b8cf21624c38d6289122176f44a70b010d4326bc3cb6fda70c4bed2#256, 0x27458f37817e66ff54062ee22269db41e7e4defbe26b40d8780dfda01d689488#256,
  0x19229fa36b335359cce78230dde2c24e43e27bb1b75638e49f7aa26b930d476e#256, 0x14d936f4055f73989670b1b757a18d894d5b77821599fa2fc581377f4e18b1e5#256,
  0x133208e979bb339a38ebb417b049ae1faefdd5bd6d4807f1acebef9ccd88f9df#256, 0x212c17c90f35692e0bda01f634b4886627aa28aa4dd7b2b4fa02f36b5edace01#256,
  0x207f573480efda8680187c8ff1453ae2d5747d0e17d0f02560577a1af499f42a#256, 0x20ecd0d855b38f8c3aca598081a8b8651c4b48281051e8f16f1e6323631da4a5#256,
  0x163e8203c1fb2f887efee1e7bd76a78c87a312aa99c60b13ca2d044d1eb429b5#256, 0x085426133bd1f0618cb299ef02b7178ffe92cb1729538fcf2978e12fbe759e69#256,
  0x2c45ed1cd5cad390fdd859d7a14210cd5db60e4c073657118a8582dca0680be1#256, 0x255be072bd0c62f323baebe8add7185a8ce48e25610a29a492322172db1dcbba#256,
  0x21b71a9fca7ecf023652b73ebc49300a9cf2ede1f7bf24edf0c9e680ffd4b29c#256, 0x0637e35c674d70479531da5183c7edb61b014c4c5bf1e2993e934a096ffb1828#256,
  0x1addf71a025b82b05334f772597d9e7b2e16c4085a9e62dd9fdf6f49714fcc53#256, 0x25677797f6091287c6c03e031233d19cce6b38ac4237eb89a1f2ff7777aaece0#256,
  0x1a2c0f9ab2993485c4432ff4d001b129960ea03ea90cbddd089a98591f254fcc#256, 0x0330fee39bf23e419fb8683bb074871c7ef525237427b04ec419cf4f0b2b1fb3#256,
  0x134cf2043f9786a6c554f2334b33dcdc47f9240f489eeb72e79cd9684c32c0ef#256]

/-- What the notes without value climb through along a path of zeros. -/
def dummyNodes : List (List Word) := [[
    0x15183092d7b5333eee1abdc12010abbeb6e062a16549fa52fabb472a6763aaf2#256, 0x1c91e44dd139acb6cb57b522e0032e6845cef95822f1f30a563d390511c0887e#256,
    0x12a3424a56fe1734909e7929752a4ae4a5fe1306f0273906d5d16a76cbae1e5b#256, 0x2f9f5bd66836a7898e20d64dd01165f71952ee385d7581ff85284ca71f8e8d4a#256,
    0x15dc7f88526965f8a26350f93ce16d510d5037c7ca7b9cd2f137840f40ded060#256, 0x012b9deb50bfdd709c03f4d2918f297c2c767086fec9aca5fc69aea0849fc964#256,
    0x0151618605c9f5908692cc5343c7e708f52186611972ee7ab5c4d83ae15ac09d#256, 0x01e39c33908a7f8233b4be8887943c37419dd437409f2212eed32aa527384b33#256,
    0x1af10939b0b0457b5a33e7f3d4db35076405720089a5cb0eac570dd36e6bf109#256, 0x1925cec2ea10ea9aa8436b98204e5fabedd1691e39b6512d7073d119cc1e3c2b#256,
    0x2cce03993346d62ca1819bee9cdd46811b878f1dd49bbcf4b702da19ce55b704#256, 0x228953a53fb11c3e5c67c6c74894dd225f48ba458023bc2d3f06ec4b40d73842#256,
    0x130765d0bfad21e3620b92bbd8e17c42fc7b597834d06d3d63c23387b970f306#256, 0x2c18989fd93fe410cfbaae006fb7ff7c21aff2240853015f8812b5dcb125b97a#256,
    0x13a3d8de73ad4e2c4b156798281a4bfcf055787e9841023f478a7cd21399b64e#256, 0x2b65a5ba2912c5eefec876e210b8e0a5b7289c7a8c6f33e589bdea11b4d67c67#256,
    0x0c2ae9d2270b7b39b1a1dab38a59c93e5b6d8e608c12d11453d00e09cef111dc#256, 0x05d3220dab3e5290873c42cfd51d4da073f6e599ff71f28f2a0f9acbeec881a7#256,
    0x05d46d8d2476b387ced8c6bbfbd85e68cfc817402a43357d789aef3762a59d83#256, 0x0352ea6e11ce636ceb8d5262d6d3736f920469ec1da95343146f2c3b4b31aee8#256], [
    0x1994ccc48a4b3e74900cf29a787e443358e31167c224578638426843e56c19d9#256, 0x25a5b1fa7a865e333291d83c6715927827d8509c22cd05d024c5d614345b53f5#256,
    0x285612396d1beaa1eb22409829762631a042ec958c9ebd3464cc04ef5f6abaaa#256, 0x0f1f2b519e9ea2788715feb35c3d0fc101b34917182804481b578a2b5adde08b#256,
    0x1b6f5cc11937a8ee544e9b394909117ea4b5b0f71fb2d9688714b0e0881804d2#256, 0x07e22d74d3beffb5cd543bad86879af1c4a51e20040006269c43d9077b8c025d#256,
    0x13cf0c403ee11ef2e50850d53559a7a263cf8d7965cc376d4bd00d9dcf44f7f3#256, 0x289f4a6fe6d554e616b36e1b94ec1e3dfa9241abef686ee1a8cdeb2ade1193c6#256,
    0x0582ed6ccd25b8ca8cd34fa8f0fd3e5aec283dd945abd7bb8daa9dac83e7ddeb#256, 0x1456e0dcd6a67b60e6a0a833c4e6a9acabf849ec541068e4b4dfe534626dfb74#256,
    0x0dd352a0f921dc9705b2e4070d3746788689e13f875bb72bbfe1e72fff534894#256, 0x252cac11d28ac7af2d0d57ec56ba5c0d1d859284c54d0ebf2d59bc738b64af69#256,
    0x28ff09fbb1951183a6dcafb5a10324b245c5d9ad31660f04d39f5d19c54988f2#256, 0x12ee112ea445e68392de7b4b013dcfa748ec1c236b3470472970322ed566bece#256,
    0x00786e842e03734c519ebda546afcfe3873e90183182898d361207923fafceef#256, 0x24179aad947bf6a6d33f7940a16a645c405286e982fd953f869746d611f5bc5b#256,
    0x2598100b751ef0344dca82432a2472c4fad0d6718049eb5f2592ba78cfe1a4bb#256, 0x16ad149f59ad5faa4b2176d59ee41e3d5895be7e786fd9a5fd9c09fbcb858a73#256,
    0x07f370eef8e5d757e192f7ff87d995310887cc62d52166910fbf39deeb0d1d39#256, 0x0d5db85ca6d44b8ced9284c5f55baa679eb235f61892b7e5b773b44a21448b96#256], [
    0x0a829c61f70a7715f3de4ed3a26b4279206466909f335e91311d1f4a15ff62b4#256, 0x2ca352886ace4cc762b3d8136aa19e43edbecf57117b280ccb96c7e7b512fea5#256,
    0x06d2f4953c491144d022daca65de7f50196ef547e655474a7ec1b3f6f64214b6#256, 0x2a75b42db074973baea470fc23c379da99b5c49a8662f9019e252c290b843c2c#256,
    0x2fad88a8b52f78e3664bd06b728030c175c333ddb7214f001c18a7fc4fc38724#256, 0x06aaa44137ecd03ae07cc9534a9ade6fe685f404beacd1e74fea5adceade9e7b#256,
    0x2ca51246b17e48b797b0ea3db8d4c1e0d41b2da83f76c125376e410038ab166b#256, 0x2adfece9dec98c049e1d953dd35a8f1d2b54b6ea1a750ffcd4481e98106accbe#256,
    0x282373399e52420ab3231ca52b93b41d28e859af91b70f17e6fb68faa57f97eb#256, 0x21d541f471617afca9ccb3df2aa8d9c2cdc393d61d72263f82dc4e905d432956#256,
    0x1968cc9609c1d02c3938f34e2662fed8a45c738d974cbb0016ed3bb14d09ddb7#256, 0x0214fb2ed86b1a9b2939c5bfc5b7823970ce0efe62b812356b88df5b29fe008c#256,
    0x1e7033b66f7861a27c87f1db82c1d6dc0f587abbcbfb239d987c5f10349c03f9#256, 0x08f8f75d0937665e5e3355ada970f6419e54994487da55decb3f9d8b5085ccd7#256,
    0x1fc90cb1db044d7a8e7193e6c52c1d44b801fe9cd3de60b3417ccaf622dc192d#256, 0x1359b174711e027945c3ce16e73b77ff80fa63ddf8180b4c0f3a3d3a5ada4451#256,
    0x0b7d550e99218d9fcf3c2fd4f73176b42e45612456cf2082d96049e8964a1a10#256, 0x19879aff7bbf5313a7e830740dccb4b4dc7fdbd17876d9577e843d08a726a318#256,
    0x0e71bea8dbb9781cd71d4e1f163fe628faa6336fee0da42692daa6f9e3d5732a#256, 0x235c3e10554b9a11b72f224444ec810c6a17a5b3e6848d1bd7db955f9a330d4b#256]]

/-- The empty siblings from a level on. -/
def empties (l : Nat) : List Word := (List.range (depth - l)).map fun i => zeros (l + i)

/-- The calls of `p2` on a climb, with their answers. -/
def climbed (nodes siblings : List Word) : List ((Word × Word) × Word) := (nodes.zip siblings).zip nodes.tail

def pairs : List ((Word × Word) × Word) := List.flatten [
  [((domain, spendKey), domainKey), ((change, 0), changeAlone)],
  (List.range 4).map fun i => ((ownerPk, rho.getD i 0), inner.getD i 0),
  (List.range depth).map fun l => ((zeros l, zeros l), zeros (l + 1)),
  climbed nodes (empties 0),
  climbed (leaf.getD 0 0 :: changeNodes) (change :: empties 1),
  climbed (changeNodes.getD 0 0 :: changeFirst) ((dummyNodes.getD 0 []).getD 0 0 :: empties 2),
  climbed (leaf.getD 0 0 :: outputNodes) (leaf.getD 1 0 :: empties 1),
  climbed (outputNodes.getD 0 0 :: changeLast) (changeAlone :: empties 2),
  (List.range 3).flatMap fun i => climbed (leaf.getD (i + 1) 0 :: dummyNodes.getD i []) (List.replicate depth 0)]

def triples : List ((Word × Word × Word) × Word) :=
  [((1, spendKey, 0), ownerPk), ((2, inner.getD 0 0, value), leaf.getD 0 0), ((2, inner.getD 2 0, 10000000000000000), change)] ++
    (List.range 3).map (fun i => ((2, inner.getD (i + 1) 0, 0), leaf.getD (i + 1) 0)) ++
    (List.range 4).map fun i => ((3, domainKey, leaf.getD i 0), nullifier.getD i 0)

def poseidon : Circuit.Poseidon := .ofTable pairs triples

end TwoSpends

end ShieldedPool.Wallet
