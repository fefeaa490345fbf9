import ShieldedPool.Evm.Yul

/-! Groth16Verifier.sol, the generated verifier of the spend circuit. Its one function is
assembly that calls the precompiles for the BN254 curve. -/

namespace ShieldedPool.Groth16Verifier
open Evm Yul

variable {ω : Type}

/-- Scalar field size. -/
def r : Word := 21888242871839275222246405745257275088548364400416034343698204186575808495617#256

/-- Base field size. -/
def q : Word := 21888242871839275222246405745257275088696311157297823662689037894645226208583#256

def alphax : Word := 20419890405506180329559508193458330316511544904427481170832058312918293522472#256

def alphay : Word := 20174317911205823235583287050718372832884531449566581874841152587960030936755#256

def betax1 : Word := 17796954663731275773817438295494867606966057551447117592381446445740493650875#256

def betax2 : Word := 2944798094907719793528691695869731706263038835007993150836008717319153430842#256

def betay1 : Word := 9099596250481393784263882662652085186401433744764119850129493170572840409469#256

def betay2 : Word := 15170935833317389182247469670345451663558669855933343275812614857168856382528#256

def gammax1 : Word := 11559732032986387107991004021392285783925812861821192530917403151452391805634#256

def gammax2 : Word := 10857046999023057135944570762232829481370756359578518086990519993285655852781#256

def gammay1 : Word := 4082367875863433681332203403145435568316851327593401208105741076214120093531#256

def gammay2 : Word := 8495653923123431417604973247489272438418190587263600148770280649306958101930#256

def deltax1 : Word := 10501898965275626446408572222450628073085688676051016274005030245460252218949#256

def deltax2 : Word := 12277360484929976329484734330714532586356447105829487052071122477773755203585#256

def deltay1 : Word := 16386991564781975085738552110096672731724699152756185046731638972821963300172#256

def deltay2 : Word := 1421473026913620334184154440613749326520535338706262157494184663119818866598#256

/-- `IC0`. -/
def ic0 : Word × Word :=
  (10923484859297456727043533469797335772811042066933119688485840164977221880275#256,
    18714785024115248975873870072288128749132902822328598839212720808512807996651#256)

/-- `IC1`, ..., `IC9`, the points that go with the nine signals. -/
def ics : List (Word × Word) := [
  (16130732960183415270990510420168596081584638106439454261776610494203102580438#256,
    15549071335331563559408364915652695938646541457804482840730840195837232212558#256),
  (11367529868262564209473030592514073111809572647152498315562705189785285795187#256,
    5824407200447773444961100216030112256703810919087403439144092038902053901755#256),
  (17774818818497643306556431770100585846911724462271347979621015061979647545812#256,
    5626994705204146981228798808306379598674337157850830188230194025520154159737#256),
  (3139551070913465469093751464642568532875513446464474995800906696683272378175#256,
    16099869340272840084488004516888330947696935185631638850799561675132892712617#256),
  (7693802805716014373472498009312303535050884848875430706387426735420459314511#256,
    15721499939560809967687817290987643526710056781382231999906814754195422904763#256),
  (21415499686174127282791110859644227470533763267808828971483521223016797374037#256,
    11736842473061160586074789169828636861770714789760691144925969457299961682802#256),
  (19365206184052934790042297359349829110994402174341052696322440938575980974775#256,
    16159484946515727728626755042772603817083598691120206298957100638695216415134#256),
  (2615965099764986302108276996601804312647571790114079360962021720411307824073#256,
    7166062460911174592167066698397628090073052773170105480925562952464468802205#256),
  (1749633757826742314654473201773085982201907041159411688666765833403951413998#256,
    10904818905362087182500117460955485266692619380331131261657706360082286163260#256)]

def pVk : Nat := 0

def pPairing : Nat := 128

def pLastMem : Nat := 896

/-- `mstore(0, w)` and `return(0, 0x20)`, which ends the call from inside any function. Nothing
in the assembly reverts: what a program here throws is what the call returns. -/
def leave {α : Type} (w : Word) : Program ω α := do
  mstore 0x00 w
  revertRange 0x00 0x20

def leaveIf (condition : Word) : Program ω Unit := if condition ≠ 0 then leave 0 else return ()

def checkField (v : Word) : Program ω Unit := leaveIf (Op.iszero (Op.lt v r))

/-- Adds `s` times the point `(x, y)` to the point in memory at `pR`. -/
def g1MulAccC (env : Env) (pR : Nat) (x y s : Word) : Program ω Unit := do
  let mIn ← Exec.read fun m => (m.memory.loadWord 0x40).toNat
  mstore mIn x
  mstore (mIn + 32) y
  mstore (mIn + 64) s
  let success ← callPure env 7 mIn 96 mIn 64
  leaveIf (Op.iszero success)
  let px ← mload pR
  mstore (mIn + 64) px
  let py ← mload (pR + 32)
  mstore (mIn + 96) py
  let success ← callPure env 6 mIn 128 pR 64
  leaveIf (Op.iszero success)

/-- The calls of `g1_mulAccC`, each for the next signal. -/
def combine (env : Env) (pR : Nat) : List (Word × Word) → Nat → Program ω Unit
  | [], _ => return ()
  | ic :: rest, signal => do
    g1MulAccC env pR ic.1 ic.2 (wordAt env.data signal)
    combine env pR rest (signal + 32)

/-- The checks of the signals. -/
def checkFields (env : Env) : Nat → Nat → Program ω Unit
  | 0, _ => return ()
  | count + 1, signal => do
    checkField (wordAt env.data signal)
    checkFields env count (signal + 32)

/-- A row of `mstore`s, each 32 bytes above the one before. -/
def mstores (offset : Nat) (words : List Word) : Program ω Unit :=
  Exec.update fun m => { m with memory := m.memory.storeWords offset words }

def checkPairing (env : Env) (pA pB pC pubSignals pMem : Nat) : Program ω Word := do
  mstores (pMem + pVk) [ic0.1, ic0.2]
  combine env (pMem + pVk) ics pubSignals
  mstores (pMem + pPairing) [
    -- -A
    wordAt env.data pA, (q - wordAt env.data (pA + 32)) % q,
    -- B
    wordAt env.data pB, wordAt env.data (pB + 32), wordAt env.data (pB + 64), wordAt env.data (pB + 96),
    -- alpha1 and beta2
    alphax, alphay, betax1, betax2, betay1, betay2]
  -- vk_x
  let px ← mload (pMem + pVk)
  mstore (pMem + pPairing + 384) px
  let py ← mload (pMem + (pVk + 32))
  mstore (pMem + pPairing + 416) py
  mstores (pMem + pPairing + 448) [
    -- gamma2
    gammax1, gammax2, gammay1, gammay2,
    -- C
    wordAt env.data pC, wordAt env.data (pC + 32),
    -- delta2
    deltax1, deltax2, deltay1, deltay2]
  let success ← callPure env 8 (pMem + pPairing) 768 (pMem + pPairing) 0x20
  let answer ← mload (pMem + pPairing)
  return Op.and success answer

def verifyProof (env : Env) (pA pB pC pubSignals : Nat) : Program ω Word := do
  let pMem ← Exec.read fun m => (m.memory.loadWord 0x40).toNat
  mstore 0x40 (BitVec.ofNat 256 (pMem + pLastMem))
  checkFields env 9 pubSignals
  let isValid ← checkPairing env pA pB pC pubSignals pMem
  leave isValid

/-- The function as Solidity enters it, with the free memory pointer set up. -/
def enter (env : Env) : Program Unit Word := do
  mstore 0x40 0x80
  verifyProof env 4 (4 + 0x40) (4 + 0xc0) (4 + 0x100)

/-- The call as Solidity dispatches it: no value, the one selector, and the static arguments within
the call data. -/
def call (env : Env) : Except Bytes Bytes :=
  if env.value ≠ 0 ∨ env.data.length < 4 ∨ wordAt env.data 0 >>> 224 ≠ 0xc542c93b#256 ∨ env.data.length < 4 + 0x220 then
    .error []
  else
    match enter env (Machine.start ()) with
    | .ok (w, _) => .ok (encodeWord w)
    | .error out => .ok out

end ShieldedPool.Groth16Verifier
