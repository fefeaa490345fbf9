import ShieldedPool.Proofs.Verdict

/-! Which error a rejected transaction shows: the one frame 0 reverts with against the one
the settlement would revert with, when one binding between the two is violated. -/

namespace ShieldedPool.Proofs
open Evm Yul PoolYul Exec

variable {ω σ : Type}

/-- The frames frame 0 accepts, with the flags and gas limits it fixes. -/
inductive Framing (d : Deployment) (tx : FrameTx) (f : Frame) : Prop
  | selfPaid {v} (verify : VerifyFrame d v) (flags : v.flags = 3) (gas : v.gasLimit = 350000) (frames : tx.frames = [v, f])
  | sponsored {v p} (verify : VerifyFrame d v) (flags : v.flags = 2) (gas : v.gasLimit = 300000) (pay : PayFrame p)
      (payGas : p.gasLimit = 100000) (frames : tx.frames = [v, p, f])

/-- All that frame 0 asks apart from the bindings and the proof; `f` is the frame that settles. -/
structure Framed (d : Deployment) (tx : FrameTx) (f : Frame) : Prop where
  framing : Framing d tx f
  sender : tx.sender = d.self
  signatures : tx.signatures = 1
  blobs : tx.blobs = 0
  target : f.target = d.self
  mode : f.mode = .sender
  flags : f.flags = 0
  gas : f.gasLimit = 10000000
  value : f.value = 0
  call : f.data.length = 548 ∧ wordAt f.data 0 >>> 224 = Method.selector .transfer ∨
    f.data.length = 580 ∧ wordAt f.data 0 >>> 224 = Method.selector .withdraw

/-- The word that names a withdrawal's recipient. -/
def recipientWord (f : Frame) : Word := wordAt f.data 548

/-- What frame 0 and the settlement both bind the Spend tuple to. -/
inductive Binding where
  | nonceSeq | keyCount | keys | refCount | refSource | refRoot | nullifiers | domain | canonical | amounts | call
  deriving DecidableEq, Repr

def Binding.Holds (d : Deployment) (tx : FrameTx) (f : Frame) : Binding → Prop
  | nonceSeq => tx.nonceSeq = 0
  | keyCount => tx.nonceKeys.length = 2
  | keys => (∀ k, tx.nonceKeys[0]? = some k → k = (Spend.decode f.data 4).lo) ∧
      ∀ k, tx.nonceKeys[1]? = some k → k = (Spend.decode f.data 4).hi
  | refCount => tx.refs.length = 1
  | refSource => ∀ r, tx.refs[0]? = some r → r.source = d.sourceId
  | refRoot => ∀ r, tx.refs[0]? = some r → r.root = (Spend.decode f.data 4).root
  | nullifiers => (Spend.decode f.data 4).nf1 ≠ 0 ∧ (Spend.decode f.data 4).nf2 ≠ 0
  | domain => (Spend.decode f.data 4).domain = d.domain
  | canonical => (Spend.decode f.data 4).Canonical
  | amounts => (Spend.decode f.data 4).publicAmount < maxValue ∧ (Spend.decode f.data 4).fee < maxValue
  | call => if f.data.length = 548 then (Spend.decode f.data 4).publicAmount = 0 ∧ (Spend.decode f.data 4).ctx = 0
      else (Spend.decode f.data 4).publicAmount ≠ 0 ∧ recipientWord f ≠ 0 ∧ Address.Clean (recipientWord f) ∧
        (Spend.decode f.data 4).ctx = recipientWord f

/-- Just this binding is violated. -/
structure Binding.OnlyViolated (d : Deployment) (tx : FrameTx) (f : Frame) (b : Binding) : Prop where
  violated : ¬ b.Holds d tx f
  others : ∀ other, other ≠ b → other.Holds d tx f

section Attributed
open scoped Classical

/-- Checks of bindings in turn, each with the error it throws. -/
noncomputable def attributed (holds : Binding → Prop) : List (Binding × Bytes) → Except Bytes Unit
  | [] => .ok ()
  | (b, data) :: rest => reject (¬ holds b) data >>= fun _ => attributed holds rest

theorem attributed_one (holds : Binding → Prop) (b : Binding) (data : Bytes) :
    attributed holds [(b, data)] = reject (¬ holds b) data := bind_pure (reject (¬ holds b) data)

theorem attributed_append (holds : Binding → Prop) (first rest : List (Binding × Bytes)) :
    attributed holds (first ++ rest) = attributed holds first >>= fun _ => attributed holds rest := by
  induction first with
  | nil => rfl
  | cons check first ih => rw [List.cons_append, attributed, attributed, ih, bind_assoc]

theorem holds_of_attributed {holds : Binding → Prop} {checks : List (Binding × Bytes)} (passed : attributed holds checks = .ok ())
    {b : Binding} {data : Bytes} (listed : (b, data) ∈ checks) : holds b := by
  induction checks with
  | nil => cases listed
  | cons check rest ih =>
    obtain ⟨held, passed⟩ := reject_bind_ok.mp passed
    rcases List.mem_cons.mp listed with rfl | later
    · exact not_not.mp held
    · exact ih passed later

/-- Where one binding alone is violated, its own check throws. -/
theorem attributed_only {holds : Binding → Prop} {b : Binding} {data : Bytes} (violated : ¬ holds b)
    (others : ∀ other, other ≠ b → holds other) {checks : List (Binding × Bytes)} (listed : checks.lookup b = some data) :
    attributed holds checks = .error data := by
  induction checks with
  | nil => cases listed
  | cons check rest ih =>
    obtain ⟨c, thrown⟩ := check
    rw [attributed]
    by_cases same : c = b
    · subst same
      rw [List.lookup_cons_self] at listed
      rw [reject_pos violated, Option.some.inj listed]
    · rw [List.lookup_cons, beq_eq_false_iff_ne.mpr (Ne.symm same)] at listed
      rw [reject_neg (not_not.mpr (others c same)), ih listed]

end Attributed

/-- The words EnvelopeProbe has written so far, over blank memory. -/
def laid (words : List Word) : Machine Unit := { Machine.start () with memory := Memory.empty.storeWords 0 words }

theorem laid_append (words : List Word) (w : Word) :
    { laid words with memory := (laid words).memory.storeWord (32 * words.length) w } = laid (words ++ [w]) := by
  simp only [laid, Memory.storeWords_append, Nat.zero_add]
  rfl

theorem storeWords_above (words : List Word) {i : Nat} (above : 32 * words.length ≤ i) : Memory.empty.storeWords 0 words i = 0 := by
  rw [Memory.storeWords_eq_store, Memory.store, if_neg (by simp; omega)]
  rfl

/-- Zero written above the other words is what blank memory holds already. -/
theorem laid_zero (words : List Word) : laid (words ++ [0]) = laid words := by
  rw [← laid_append]
  suffices blank : (laid words).memory.storeWord (32 * words.length) 0 = (laid words).memory by rw [blank]
  funext i
  simp only [Memory.storeWord, Memory.store, laid]
  split_ifs with inside
  · have within : i - 32 * words.length < 32 := by have := inside.2; rw [length_encodeWord] at this; omega
    rw [storeWords_above words inside.1, getD_encodeWord 0 _ within]
    simp [byteOf]
  · rfl

theorem lay {α : Type} {words : List Word} {offset : Nat} (next : offset = 32 * words.length) (value : Word) (rest : Word → Program Unit α) :
    (opcode (some value) >>= fun w => mstore offset w >>= fun _ => rest w) (laid words) = rest value (laid (words ++ [value])) := by
  subst next
  rw [← laid_append]
  rfl

/-- A word the probe writes only if it is there. -/
theorem layWhen {α : Type} {words : List Word} {offset : Nat} (next : offset = 32 * words.length) {condition : Prop} [Decidable condition]
    (value : Option Word) (there : condition ↔ value.isSome) (rest : Unit → Program Unit α) :
    (Exec.when condition (do let w ← opcode value; mstore offset w) >>= rest) (laid words) =
      rest () (laid (words ++ [value.getD 0])) := by
  cases value with
  | none =>
    rw [Exec.when, if_neg (by simp [there]), Option.getD_none, laid_zero]
    rfl
  | some w =>
    subst next
    rw [Option.getD_some, ← laid_append, Exec.when, if_pos (by simp [there])]
    rfl

variable {d : Deployment} {tx : FrameTx} {f : Frame} {payer : Address}

/-- EnvelopeProbe's report from the last frame of a transaction. -/
def report (tx : FrameTx) (f : Frame) (payer : Address) : Facts where
  frames := BitVec.ofNat 256 tx.frames.length
  frameIndex := BitVec.ofNat 256 (lastIndex tx)
  keyCount := BitVec.ofNat 256 tx.nonceKeys.length
  nonceSeq := tx.nonceSeq
  k0 := tx.nonceKeys[0]?.getD 0
  k1 := tx.nonceKeys[1]?.getD 0
  refCount := BitVec.ofNat 256 tx.refs.length
  refSource := (tx.refs[0]?.map RootReference.source).getD 0
  refRoot := (tx.refs[0]?.map RootReference.root).getD 0
  settleTarget := f.target.word
  payerWord := payer.word

def wordsOf (facts : Facts) : List Word :=
  [facts.frames, facts.frameIndex, facts.keyCount, facts.nonceSeq, facts.k0, facts.k1, facts.refCount, facts.refSource,
    facts.refRoot, facts.settleTarget, facts.payerWord]

theorem toNat_count {n : Nat} (bound : n < 2 ^ 64) : (BitVec.ofNat 256 n).toNat = n := by
  rw [BitVec.toNat_ofNat, Nat.mod_eq_of_lt (by omega)]

theorem count_eq {n : Nat} (bound : n < 2 ^ 64) (w : Word) : BitVec.ofNat 256 n = w ↔ n = w.toNat := by
  rw [← toNat_count bound, BitVec.toNat_inj, toNat_count bound]

theorem gt_count {α : Type} {l : List α} (bound : l.length < 2 ^ 64) {k : Nat} {w : Word} (same : w.toNat = k) :
    Op.gt (BitVec.ofNat 256 l.length) w ≠ 0 ↔ l[k]?.isSome := by
  rw [Op.gt_ne_zero, toNat_count bound, gt_iff_lt, same, Option.isSome_iff_exists]
  exact ⟨fun inside => ⟨_, List.getElem?_eq_getElem inside⟩, fun ⟨_, there⟩ => (List.getElem?_eq_some_iff.mp there).1⟩

/-- The reference the probe reads when there is one. -/
theorem layReference {α : Type} {words : List Word} {offset : Nat} (next : offset = 32 * words.length) {condition : Prop}
    [Decidable condition] (reference : Option RootReference) (there : condition ↔ reference.isSome) (rest : Unit → Program Unit α) :
    (Exec.when condition (do
      let source ← opcode (reference >>= fun r => FrameTx.refField r 0)
      mstore offset source
      let root ← opcode (reference >>= fun r => FrameTx.refField r 2)
      mstore (offset + 32) root) >>= rest) (laid words) =
      rest () (laid (words ++ [(reference.map RootReference.source).getD 0] ++ [(reference.map RootReference.root).getD 0])) := by
  cases reference with
  | none =>
    rw [Exec.when, if_neg (by simp [there]), Option.map_none, Option.map_none, Option.getD_none, laid_zero, laid_zero]
    rfl
  | some r =>
    subst next
    rw [Option.map_some, Option.map_some, Option.getD_some, Option.getD_some, ← laid_append, ← laid_append, Exec.when,
      if_pos (by simp [there]), List.length_append, Nat.mul_add]
    rfl

/-- What the probe says while frame `index` runs: zero for whatever the envelope does not have. -/
def reportAt (tx : FrameTx) (index : Nat) (payer : Option Address) : Facts where
  frames := BitVec.ofNat 256 tx.frames.length
  frameIndex := BitVec.ofNat 256 index
  keyCount := BitVec.ofNat 256 tx.nonceKeys.length
  nonceSeq := tx.nonceSeq
  k0 := tx.nonceKeys[0]?.getD 0
  k1 := tx.nonceKeys[1]?.getD 0
  refCount := BitVec.ofNat 256 tx.refs.length
  refSource := (tx.refs[0]?.map RootReference.source).getD 0
  refRoot := (tx.refs[0]?.map RootReference.root).getD 0
  settleTarget := (tx.frames[index]?.map fun f => f.target.word).getD 0
  payerWord := (payer.map Address.word).getD 0

theorem reply_reportAt (tx : FrameTx) {index : Nat} (bound : index < 2 ^ 256) (payer : Option Address) :
    EnvelopeProbe.reply (tx.opcodes index payer) = some (encodeWords (wordsOf (reportAt tx index payer))) := by
  have number : (BitVec.ofNat 256 index).toNat = index := by rw [BitVec.toNat_ofNat, Nat.mod_eq_of_lt bound]
  have current : Op.lt (BitVec.ofNat 256 index) (BitVec.ofNat 256 tx.frames.length) ≠ 0 ↔
      (tx.frames[index]?.map fun f => f.target.word).isSome := by
    rw [Op.lt_ne_zero, BitVec.lt_def, number, toNat_count tx.fewFrames, Option.isSome_map, Option.isSome_iff_exists]
    exact ⟨fun inside => ⟨_, List.getElem?_eq_getElem inside⟩, fun ⟨_, there⟩ => (List.getElem?_eq_some_iff.mp there).1⟩
  have target : (tx.opcodes index payer).frameParam (BitVec.ofNat 256 index).toNat 0x00 = tx.frames[index]?.map fun f => f.target.word := by
    rw [number]
    change (tx.frames[index]? >>= fun f => FrameTx.frameParam f 0x00) = _
    cases tx.frames[index]? <;> rfl
  generalize said : reportAt tx index payer = facts
  have ran : EnvelopeProbe.runtime (tx.opcodes index payer) (Machine.start ()) =
      .ok ((laid (wordsOf facts)).memory.load 0 352, laid (wordsOf facts)) := by
    have start : Machine.start () = laid [] := rfl
    have count : (tx.opcodes index payer).txParam 0x09 = some (BitVec.ofNat 256 tx.frames.length) := rfl
    have position : (tx.opcodes index payer).txParam 0x0A = some (BitVec.ofNat 256 index) := rfl
    have keys : (tx.opcodes index payer).txParam 0x0D = some (BitVec.ofNat 256 tx.nonceKeys.length) := rfl
    have refs : (tx.opcodes index payer).txParam 0x0F = some (BitVec.ofNat 256 tx.refs.length) := rfl
    have nonce : (tx.opcodes index payer).txParam 0x01 = some tx.nonceSeq := rfl
    have paid : (tx.opcodes index payer).txParam 0x11 = some ((payer.map Address.word).getD 0) := by cases payer <;> rfl
    rw [EnvelopeProbe.runtime, start, count, position, keys, nonce, refs, paid, lay, lay, lay, lay]
    refine (layWhen (by rfl) tx.nonceKeys[0]? (gt_count tx.fewKeys (by rfl)) _).trans ?_
    refine (layWhen (by rfl) tx.nonceKeys[1]? (gt_count tx.fewKeys (by rfl)) _).trans ?_
    rw [lay]
    refine (layReference (by rfl) tx.refs[0]? (gt_count tx.fewRefs (by rfl)) _).trans ?_
    rw [target]
    rw [reportAt] at said
    generalize (tx.frames[index]?.map fun f => f.target.word) = settleTarget at current said ⊢
    refine (layWhen (by rfl) settleTarget current _).trans ?_
    rw [lay, ← said]
    all_goals rfl
  have read : (laid (wordsOf facts)).memory.load 0 352 = encodeWords (wordsOf facts) :=
    Memory.load_store_words Memory.empty 0 (wordsOf facts) rfl
  rw [EnvelopeProbe.reply, ran, read]

theorem reply_report (last : tx.frames[lastIndex tx]? = some f) :
    EnvelopeProbe.reply (tx.opcodes (lastIndex tx) (some payer)) = some (encodeWords (wordsOf (report tx f payer))) := by
  have inside : lastIndex tx < tx.frames.length := (List.getElem?_eq_some_iff.mp last).1
  have bound : lastIndex tx < 2 ^ 256 := (inside.trans tx.fewFrames).trans (by decide)
  have same : reportAt tx (lastIndex tx) (some payer) = report tx f payer := by
    rw [reportAt, last]
    rfl
  rw [reply_reportAt tx bound, same]

theorem requireEq_passes {e : Error} {value : Option Word} {expected : Word} (same : value = some expected) :
    Decides (requireEq e value expected : Program ω Unit) (.ok ()) := by
  subst same
  exact (requireEq_decides e expected expected).congr (if_neg (not_not.mpr rfl))

theorem requireZero_passes {e : Error} {value : Option Word} (same : value = some 0) :
    Decides (requireZero e value : Program ω Unit) (.ok ()) := by
  subst same
  exact (requireZero_decides e 0).congr (if_neg (not_not.mpr rfl))

theorem frameParam_of {index i : Nat} {earlier : Option Address} {g : Frame} (frame : tx.frames[i]? = some g) (param : Nat) :
    (tx.opcodes index earlier).frameParam i param = FrameTx.frameParam g param := by
  change (tx.frames[i]? >>= fun f => FrameTx.frameParam f param) = _
  rw [frame]
  rfl

theorem frameDataLoad_of {index i : Nat} {earlier : Option Address} {g : Frame} (frame : tx.frames[i]? = some g) (offset : Nat) :
    (tx.opcodes index earlier).frameDataLoad i offset = some (wordAt g.data offset) := by
  change (tx.frames[i]? >>= fun f => some (wordAt f.data offset)) = _
  rw [frame]
  rfl

/-- The place of the frame that settles, and whether the pool pays. -/
inductive Placed (d : Deployment) (tx : FrameTx) (f : Frame) : Nat → Bool → Prop
  | selfPaid {v} (verify : VerifyFrame d v) (flags : v.flags = 3) (gas : v.gasLimit = 350000) (frames : tx.frames = [v, f]) :
      Placed d tx f 1 true
  | sponsored {v p} (verify : VerifyFrame d v) (flags : v.flags = 2) (gas : v.gasLimit = 300000) (pay : PayFrame p)
      (payGas : p.gasLimit = 100000) (frames : tx.frames = [v, p, f]) : Placed d tx f 2 false

theorem placed_of_framing (framing : Framing d tx f) : ∃ i selfPay, Placed d tx f i selfPay := by
  rcases framing with ⟨verify, flags, gas, frames⟩ | ⟨verify, flags, gas, pay, payGas, frames⟩
  · exact ⟨1, true, .selfPaid verify flags gas frames⟩
  · exact ⟨2, false, .sponsored verify flags gas pay payGas frames⟩

section FrameZero
open scoped Classical
variable {i : Nat} {selfPay : Bool} {env : Env}

theorem last_of_placed (placed : Placed d tx f i selfPay) : tx.frames[i]? = some f ∧ lastIndex tx = i := by
  rcases placed with ⟨-, -, -, frames⟩ | ⟨-, -, -, -, -, frames⟩ <;> rw [lastIndex, frames] <;> exact ⟨rfl, rfl⟩

theorem first_of_placed (placed : Placed d tx f i selfPay) : ∃ v, tx.frames[0]? = some v ∧ VerifyFrame d v := by
  rcases placed with ⟨verify, -, -, frames⟩ | ⟨verify, -, -, -, -, frames⟩ <;> exact ⟨_, by rw [frames]; rfl, verify⟩

theorem frameParam_passes {e : Error} {j : Nat} {g : Frame} {w : Word} (frame : tx.frames[j]? = some g) (param : Nat)
    (read : FrameTx.frameParam g param = some w) :
    Decides (requireEq e ((tx.opcodes 0 none).frameParam j param) w : Program ω Unit) (.ok ()) :=
  requireEq_passes ((frameParam_of frame param).trans read)

theorem frameParam_zero {e : Error} {j : Nat} {g : Frame} (frame : tx.frames[j]? = some g) (param : Nat)
    (read : FrameTx.frameParam g param = some 0) :
    Decides (requireZero e ((tx.opcodes 0 none).frameParam j param) : Program ω Unit) (.ok ()) :=
  requireZero_passes ((frameParam_of frame param).trans read)

theorem checkPaymentShape_passes (placed : Placed d tx f i selfPay) :
    Decides (checkPaymentShape (tx.opcodes 0 none) selfPay : Program ω Unit) (.ok ()) := by
  rcases placed with @⟨v, verify, flags, gas, frames⟩ | @⟨v, p, verify, flags, gas, pay, payGas, frames⟩
  · have first : tx.frames[0]? = some v := by rw [frames]; rfl
    exact (frameParam_passes first 0x03 (congrArg some flags)).value (frameParam_passes first 0x01 (congrArg some gas))
  · have first : tx.frames[0]? = some v := by rw [frames]; rfl
    have second : tx.frames[1]? = some p := by rw [frames]; rfl
    exact (frameParam_passes first 0x03 (congrArg some flags)).value <| (frameParam_passes first 0x01 (congrArg some gas)).value <|
      (frameParam_passes second 0x02 (congrArg (fun m => some (Mode.word m)) pay.mode)).value <|
      (frameParam_passes second 0x03 (congrArg some pay.flags)).value <|
      (frameParam_passes second 0x01 (congrArg some payGas)).value (frameParam_zero second 0x08 (congrArg some pay.value))

theorem keyCount_iff : BitVec.ofNat 256 tx.nonceKeys.length ≠ 2 ↔ ¬ Binding.keyCount.Holds d tx f := not_congr (count_eq tx.fewKeys 2)

theorem refCount_iff : BitVec.ofNat 256 tx.refs.length ≠ 1 ↔ ¬ Binding.refCount.Holds d tx f := not_congr (count_eq tx.fewRefs 1)

/-- Of the envelope only the counts and the nonce are left to decide. -/
theorem checkFrames_decides (framed : Framed d tx f) (placed : Placed d tx f i selfPay) (hosted : Hosted d env) :
    Decides (checkFrames env (tx.opcodes 0 none) i selfPay : Program ω Unit)
      (attributed (Binding.Holds d tx f) [(.keyCount, Error.keySetMismatch.data), (.nonceSeq, Error.notFaithfulShape.data),
        (.refCount, Error.notFaithfulShape.data)]) := by
  obtain ⟨v, first, verify⟩ := first_of_placed placed
  obtain ⟨last, -⟩ := last_of_placed placed
  have rest : Decides (checkFrames env (tx.opcodes 0 none) i selfPay : Program ω Unit) (do
      reject (BitVec.ofNat 256 tx.nonceKeys.length ≠ 2) Error.keySetMismatch.data
      reject (tx.nonceSeq ≠ 0) Error.notFaithfulShape.data
      reject (BitVec.ofNat 256 tx.refs.length ≠ 1) Error.notFaithfulShape.data
      .ok ()) := by
    rw [checkFrames, hosted.address]
    exact (requireZero_passes rfl).value <| (requireEq_passes (congrArg some framed.signatures)).value <|
      (requireZero_passes (congrArg some framed.blobs)).value <| (requireEq_decides ..).guard <| (requireZero_decides ..).guard <|
      (requireEq_decides ..).guard <| (frameParam_passes first 0x00 (congrArg (fun a => some (Address.word a)) verify.target)).value <|
      (frameParam_passes first 0x02 (congrArg (fun m => some (Mode.word m)) verify.mode)).value <|
      (frameParam_zero first 0x04 (congrArg (fun l => some (BitVec.ofNat 256 (List.length l))) verify.data)).value <|
      (frameParam_zero first 0x08 (congrArg some verify.value)).value <| (checkPaymentShape_passes placed).value <|
      (frameParam_passes last 0x00 (congrArg (fun a => some (Address.word a)) framed.target)).value <|
      (frameParam_passes last 0x02 (congrArg (fun m => some (Mode.word m)) framed.mode)).value <|
      (frameParam_zero last 0x03 (congrArg some framed.flags)).value <|
      (frameParam_passes last 0x01 (congrArg some framed.gas)).value (frameParam_zero last 0x08 (congrArg some framed.value))
  refine rest.congr ?_
  have nonce : tx.nonceSeq ≠ 0 ↔ ¬ Binding.nonceSeq.Holds d tx f := Iff.rfl
  rw [reject_congr (@keyCount_iff d tx f), reject_congr nonce, reject_congr (@refCount_iff d tx f)]
  rfl

/-- The error frame 0 throws where the call's shape or its recipient is wrong. -/
def frameCallError (f : Frame) : Error :=
  if f.data.length = 548 then .transferShape
  else if (Spend.decode f.data 4).publicAmount = 0 ∨ recipientWord f = 0 ∨ ¬ Address.Clean (recipientWord f) then .withdrawShape
  else .ctxDoesNotNameRecipient

theorem checkSettleCall_decides (framed : Framed d tx f) (placed : Placed d tx f i selfPay) :
    Decides (checkSettleCall (tx.opcodes 0 none) i : Program ω Unit)
      (attributed (Binding.Holds d tx f) [(.call, (frameCallError f).data)]) := by
  obtain ⟨last, -⟩ := last_of_placed placed
  have size : (tx.opcodes 0 none).frameParam i 0x04 = some (BitVec.ofNat 256 f.data.length) := frameParam_of last _
  have word (offset : Nat) := @frameDataLoad_of tx 0 i none f last offset
  rw [checkSettleCall, size, opcode_some, word 0, opcode_some, word 196, word 260]
  rcases framed.call with ⟨length, selector⟩ | ⟨length, selector⟩
  · rw [if_pos ((count_eq f.short 548).mpr length)]
    refine ((failIf_decides _ _).congr (if_neg ?_)).value <|
      ((requireZero_decides ..).guard (requireZero_decides ..)).congr ?_
    · rw [Op.iszero_eq_ne_zero]
      exact not_not.mpr selector
    · have shape : ((Spend.decode f.data 4).publicAmount ≠ 0 ∨ (Spend.decode f.data 4).ctx ≠ 0) ↔ ¬ Binding.call.Holds d tx f := by
        rw [Binding.Holds, if_pos length, not_and_or]
      rw [reject_or_last, frameCallError, if_pos length, attributed_one, ← reject_congr shape]
      rfl
  · have other : ¬ f.data.length = 548 := by omega
    rw [if_neg (mt (count_eq f.short 548).mp other), if_pos ((count_eq f.short 580).mpr length), word 548]
    refine ((failIf_decides _ _).congr (if_neg ?_)).value <|
      ((failIf_decides _ _).guard <| (failIf_decides _ _).guard (requireEq_decides ..)).congr ?_
    · rw [Op.iszero_eq_ne_zero]
      exact not_not.mpr selector
    · have shape : (Op.iszero (wordAt f.data 196) ≠ 0 ∨ Op.or (Op.iszero (wordAt f.data 548)) (wordAt f.data 548 >>> 160) ≠ 0) ↔
          (Spend.decode f.data 4).publicAmount = 0 ∨ recipientWord f = 0 ∨ ¬ Address.Clean (recipientWord f) := by
        rw [Op.iszero_ne_zero, Op.or_ne_zero, Op.iszero_ne_zero]
        rfl
      have holds : (((Spend.decode f.data 4).publicAmount = 0 ∨ recipientWord f = 0 ∨ ¬ Address.Clean (recipientWord f)) ∨
          (Spend.decode f.data 4).ctx ≠ recipientWord f) ↔ ¬ Binding.call.Holds d tx f := by
        rw [Binding.Holds, if_neg other]
        simp only [not_and_or, not_not, ne_eq, or_assoc]
      rw [reject_or, reject_congr shape, attributed_one, ← reject_congr holds, frameCallError, if_neg other, apply_ite Error.data]
      exact reject_orElse ..

theorem checkBindings_decides (placed : Placed d tx f i selfPay) (hosted : Hosted d env) (counted : Binding.keyCount.Holds d tx f)
    (single : Binding.refCount.Holds d tx f) :
    Decides (checkBindings env (tx.opcodes 0 none) i : Program ω Unit)
      (attributed (Binding.Holds d tx f) [(.keys, Error.keySetMismatch.data), (.refSource, Error.rootNotBoundToReference.data),
        (.refRoot, Error.rootNotBoundToReference.data)]) := by
  obtain ⟨last, -⟩ := last_of_placed placed
  obtain ⟨k0, k1, keys⟩ := List.length_eq_two.mp counted
  obtain ⟨r, refs⟩ := List.length_eq_one_iff.mp single
  have nf1 : (tx.opcodes 0 none).frameDataLoad i 68 = some (Spend.decode f.data 4).nf1 := frameDataLoad_of last 68
  have nf2 : (tx.opcodes 0 none).frameDataLoad i 100 = some (Spend.decode f.data 4).nf2 := frameDataLoad_of last 100
  have root : (tx.opcodes 0 none).frameDataLoad i 4 = some (Spend.decode f.data 4).root := frameDataLoad_of last 4
  have key0 : (tx.opcodes 0 none).nonceKey 0 = some k0 := congrArg (fun l : List Word => l[0]?) keys
  have key1 : (tx.opcodes 0 none).nonceKey 1 = some k1 := congrArg (fun l : List Word => l[1]?) keys
  have named : (tx.opcodes 0 none).recentRootRef 0 0 = some r.source :=
    congrArg (fun l : List RootReference => l[0]? >>= fun r => FrameTx.refField r 0) refs
  have proven : (tx.opcodes 0 none).recentRootRef 2 0 = some r.root :=
    congrArg (fun l : List RootReference => l[0]? >>= fun r => FrameTx.refField r 2) refs
  obtain ⟨lo, hi⟩ := sorted_eq (Spend.decode f.data 4)
  have sorted : (k0 ≠ (Spend.decode f.data 4).lo ∨ k1 ≠ (Spend.decode f.data 4).hi) ↔ ¬ Binding.keys.Holds d tx f := by
    rw [Binding.Holds, keys, ← not_and_or]
    simp
  have source : r.source ≠ d.sourceId ↔ ¬ Binding.refSource.Holds d tx f := by
    rw [Binding.Holds, refs]
    simp
  have anchored : r.root ≠ (Spend.decode f.data 4).root ↔ ¬ Binding.refRoot.Holds d tx f := by
    rw [Binding.Holds, refs]
    simp
  rw [checkBindings, nf1, nf2, key0, key1, named, proven, root]
  simp only [opcode_some, lo, hi]
  refine ((requireEq_decides ..).guard <| (requireEq_decides ..).guard <| (Decides.of_returns (sourceId_returns hosted)).value <|
    (failIf_decides _ _).guard (failIf_decides _ _)).congr ?_
  rw [reject_or, reject_congr sorted, reject_congr ((Op.iszero_eq_ne_zero _ _).trans source),
    reject_congr ((Op.iszero_eq_ne_zero _ _).trans anchored), attributed, attributed,
    attributed_one]

theorem nullifier_verdict : reject ((Spend.decode f.data 4).nf1 = 0 ∨ (Spend.decode f.data 4).nf2 = 0) Error.zeroNullifier.data =
    attributed (Binding.Holds d tx f) [(.nullifiers, Error.zeroNullifier.data)] := by
  have nullifiers : ((Spend.decode f.data 4).nf1 = 0 ∨ (Spend.decode f.data 4).nf2 = 0) ↔ ¬ Binding.nullifiers.Holds d tx f := by
    simp only [Binding.Holds, ne_eq, not_and_or, not_not]
  rw [attributed_one, reject_congr nullifiers]

theorem validate_verdict : (do
      reject ((Spend.decode f.data 4).domain ≠ d.domain) Error.invalidDomain.data
      reject (¬ (Spend.decode f.data 4).Canonical) Error.notCanonical.data
      reject (maxValue ≤ (Spend.decode f.data 4).publicAmount ∨ maxValue ≤ (Spend.decode f.data 4).fee) Error.valueTooLarge.data) =
    attributed (Binding.Holds d tx f) [(.domain, Error.invalidDomain.data), (.canonical, Error.notCanonical.data),
      (.amounts, Error.valueTooLarge.data)] := by
  have domain : (Spend.decode f.data 4).domain ≠ d.domain ↔ ¬ Binding.domain.Holds d tx f := Iff.rfl
  have canonical : ¬ (Spend.decode f.data 4).Canonical ↔ ¬ Binding.canonical.Holds d tx f := Iff.rfl
  have amounts : (maxValue ≤ (Spend.decode f.data 4).publicAmount ∨ maxValue ≤ (Spend.decode f.data 4).fee) ↔
      ¬ Binding.amounts.Holds d tx f := by
    simp only [Binding.Holds, not_and_or, BitVec.not_lt]
  rw [reject_congr domain, reject_congr canonical, reject_congr amounts, attributed, attributed, attributed_one]

/-- The errors of frame 0, in the order of its checks. -/
def frameErrors (f : Frame) : List (Binding × Bytes) :=
  [(.keyCount, Error.keySetMismatch.data), (.nonceSeq, Error.notFaithfulShape.data), (.refCount, Error.notFaithfulShape.data)] ++
    ([(.call, (frameCallError f).data)] ++
      ([(.keys, Error.keySetMismatch.data), (.refSource, Error.rootNotBoundToReference.data),
        (.refRoot, Error.rootNotBoundToReference.data)] ++
        ([(.nullifiers, Error.zeroNullifier.data)] ++
          [(.domain, Error.invalidDomain.data), (.canonical, Error.notCanonical.data), (.amounts, Error.valueTooLarge.data)])))

/-- All the checks of frame 0 on a tuple, up to the fee. -/
theorem frameChecks_decides {image : Dispatcher.Image} {c : Call} (framed : Framed d tx f) (placed : Placed d tx f i selfPay) :
    Decides (do
      checkFrames (Dispatcher.environment d image c) (tx.opcodes 0 none) i selfPay
      checkSettleCall (tx.opcodes 0 none) i
      checkBindings (Dispatcher.environment d image c) (tx.opcodes 0 none) i
      Dispatcher.verifyFrameProof (Dispatcher.environment d image c) (tx.opcodes 0 none) i : Program ω Unit)
      (attributed (Binding.Holds d tx f) (frameErrors f) >>= fun _ =>
        reject (d.verify (Spend.decode f.data 4).verifierCall = false) Error.proofInvalid.data) := by
  have hosted : Hosted d (Dispatcher.environment d image c) := ⟨rfl, rfl, rfl⟩
  rw [frameErrors, attributed_append, attributed_append, attributed_append, attributed_append, ← nullifier_verdict, ← validate_verdict]
  simp only [bind_assoc]
  refine (checkFrames_decides framed placed hosted).guard_of fun counted => ?_
  have keys : Binding.keyCount.Holds d tx f := holds_of_attributed counted (.head _)
  have refs : Binding.refCount.Holds d tx f := holds_of_attributed counted (.tail _ (.tail _ (.head _)))
  have proof := @verifyFrameProof_decides ω d image c _ i _ (@spendIn_of_frame tx 0 i none f (last_of_placed placed).1)
  rw [proofVerdict, validVerdict] at proof
  simp only [bind_assoc] at proof
  exact (checkSettleCall_decides framed placed).guard <| (checkBindings_decides placed hosted keys refs).guard proof

theorem shapeOf_placed (placed : Placed d tx f i selfPay) :
    (shapeOf (BitVec.ofNat 256 tx.frames.length) : Program ω (Nat × Bool)) = pure (i, selfPay) := by
  rcases placed with ⟨-, -, -, frames⟩ | ⟨-, -, -, -, -, frames⟩ <;> rw [frames] <;> rfl

/-- A violated binding stops frame 0 with the error of its own check. -/
theorem authorize_error {image : Dispatcher.Image} {c : Call} {data : Bytes} (framed : Framed d tx f)
    (thrown : attributed (Binding.Holds d tx f) (frameErrors f) = .error data) :
    Dispatcher.authorize d image c (tx.opcodes 0 none) = .error data := by
  obtain ⟨i, selfPay, placed⟩ := placed_of_framing framed.framing
  have sender : (tx.opcodes 0 none).txParam 0x02 = some d.self.word := congrArg (fun a => some (Address.word a)) framed.sender
  have count : (tx.opcodes 0 none).txParam 0x09 = some (BitVec.ofNat 256 tx.frames.length) := rfl
  have checks := @frameChecks_decides Unit d tx f i selfPay image c framed placed
  rw [thrown] at checks
  have stopped : Decides (Dispatcher.verifyFrameApprove (Dispatcher.environment d image c) (tx.opcodes 0 none) : Program Unit Word)
      (.error data) := by
    rw [Dispatcher.verifyFrameApprove, PoolYul.verifyFrameApprove, count]
    refine (requireEq_passes sender).value ?_
    rw [opcode_some, shapeOf_placed placed, pure_bind]
    have ended (rest : Unit → Program Unit Word) := @Decides.fails _ _ _ _ rest _ checks
    simp only [bind_assoc] at ended
    exact ended _
  rw [Dispatcher.authorize]
  have ran := stopped.run (Machine.start ())
  cases reached : (Dispatcher.verifyFrameApprove (Dispatcher.environment d image c) (tx.opcodes 0 none) : Program Unit Word)
      (Machine.start ()) with
  | error other =>
    rw [reached] at ran
    cases ran
    rfl
  | ok pair =>
    rw [reached] at ran
    cases ran

end FrameZero

section Settlement
open scoped Classical
variable {b : Block} {s : State}

theorem envelopeFacts_decides (last : tx.frames[lastIndex tx]? = some f) :
    Decides (envelopeFacts (settleCall tx f payer b)) (.ok (report tx f payer)) := by
  refine ⟨fun s => ?_⟩
  have size : (encodeWords (wordsOf (report tx f payer))).length = 352 := length_encodeWords _
  rw [(envelopeFacts_ok (settleCall tx f payer b)).mpr
    ⟨_, reply_report last, size, (decode_facts _).symm, Address.word_clean f.target, rfl⟩]
  rfl

theorem keySet_verdict :
    reject ((report tx f payer).keyCount ≠ 2 ∨ (report tx f payer).nonceSeq ≠ 0 ∨ (report tx f payer).k0 ≠ (Spend.decode f.data 4).lo ∨
      (report tx f payer).k1 ≠ (Spend.decode f.data 4).hi) Error.keySetMismatch.data =
      attributed (Binding.Holds d tx f) [(.keyCount, Error.keySetMismatch.data), (.nonceSeq, Error.keySetMismatch.data),
        (.keys, Error.keySetMismatch.data)] := by
  rw [attributed, attributed, attributed_one, reject_or_last, reject_or_last]
  refine reject_congr ?_ _
  by_cases counted : Binding.keyCount.Holds d tx f
  · have passed : ¬ (report tx f payer).keyCount ≠ 2 := mt keyCount_iff.mp (not_not.mpr counted)
    obtain ⟨k0, k1, keys⟩ := List.length_eq_two.mp counted
    simp only [passed, counted, not_true, false_or]
    simp only [Binding.Holds, report, keys, not_and_or]
    simp
  · exact iff_of_true (.inl (keyCount_iff.mpr counted)) (.inl counted)

theorem reference_verdict :
    reject ((report tx f payer).refCount ≠ 1 ∨ (report tx f payer).refSource ≠ d.sourceId ∨
      (report tx f payer).refRoot ≠ (Spend.decode f.data 4).root) Error.rootNotBoundToReference.data =
      attributed (Binding.Holds d tx f) [(.refCount, Error.rootNotBoundToReference.data),
        (.refSource, Error.rootNotBoundToReference.data), (.refRoot, Error.rootNotBoundToReference.data)] := by
  rw [attributed, attributed, attributed_one, reject_or_last, reject_or_last]
  refine reject_congr ?_ _
  by_cases single : Binding.refCount.Holds d tx f
  · have passed : ¬ (report tx f payer).refCount ≠ 1 := mt refCount_iff.mp (not_not.mpr single)
    obtain ⟨r, refs⟩ := List.length_eq_one_iff.mp single
    simp only [passed, single, not_true, false_or]
    simp [Binding.Holds, report, refs]
  · exact iff_of_true (.inl (refCount_iff.mpr single)) (.inl single)

/-- What `_spend` throws for, once the sender, the frame and the payer are right. -/
def spendErrors : List (Binding × Bytes) :=
  [(.nullifiers, Error.zeroNullifier.data)] ++
    ([(.keyCount, Error.keySetMismatch.data), (.nonceSeq, Error.keySetMismatch.data), (.keys, Error.keySetMismatch.data)] ++
      ([(.refCount, Error.rootNotBoundToReference.data), (.refSource, Error.rootNotBoundToReference.data),
        (.refRoot, Error.rootNotBoundToReference.data)] ++
        [(.domain, Error.invalidDomain.data), (.canonical, Error.notCanonical.data), (.amounts, Error.valueTooLarge.data)]))

theorem spend_decides {i : Nat} {selfPay : Bool} (framed : Framed d tx f) (placed : Placed d tx f i selfPay) (nonzero : payer.word ≠ 0) :
    Decides (spend d (Logic.variant d) (settleCall tx f payer b) (Spend.decode f.data 4))
      (attributed (Binding.Holds d tx f) spendErrors >>= fun _ => .ok payer) := by
  obtain ⟨last, place⟩ := last_of_placed placed
  have caller : ¬ (settleCall tx f payer b).caller ≠ (Logic.variant d).poolSender := not_not.mpr framed.sender
  have shape : ¬ (¬ (report tx f payer).FinalFrame ∨ (report tx f payer).settleTarget ≠ d.self.word) := by
    have target : (report tx f payer).settleTarget = d.self.word := congrArg Address.word framed.target
    refine not_or.mpr ⟨not_not.mpr ?_, not_not.mpr target⟩
    rcases placed with ⟨-, -, -, frames⟩ | ⟨-, -, -, -, -, frames⟩
    · exact .inl ⟨by rw [report, frames]; rfl, by rw [report, lastIndex, frames]; rfl⟩
    · exact .inr ⟨by rw [report, frames]; rfl, by rw [report, lastIndex, frames]; rfl⟩
  have paid : ¬ ((report tx f payer).payerWord = 0 ∨ ¬ Address.Clean (report tx f payer).payerWord) :=
    not_or.mpr ⟨nonzero, not_not.mpr (Address.word_clean payer)⟩
  rw [spendErrors, attributed_append, attributed_append, attributed_append, ← nullifier_verdict, ← keySet_verdict, ← reference_verdict,
    ← validate_verdict, bind_assoc, bind_assoc, bind_assoc, spend]
  refine ((throwIf_decides _ _).congr (if_neg caller)).value <| (throwIf_decides _ _).guard <|
    (envelopeFacts_decides (place ▸ last)).value <| ((throwIf_decides _ _).congr (if_neg shape)).value <|
    (throwIf_decides _ _).guard <| (throwIf_decides _ _).guard <| ((throwIf_decides _ _).congr (if_neg paid)).value <|
    (validateSpend_decides d _).guard <| Decides.value (.update _) <| Decides.value (.update _) ?_
  exact (Decides.pure _).congr (congrArg Except.ok (Address.ofWord_word payer))

/-- The revert data of the settlement where the call's shape or its recipient is wrong: the ABI decoder
refuses a word that is no address, and says nothing. -/
def settleCallData (f : Frame) : Bytes :=
  if f.data.length = 548 then Error.transferShape.data
  else if ¬ Address.Clean (recipientWord f) then []
  else if (Spend.decode f.data 4).publicAmount = 0 ∨ (Spend.decode f.data 4).ctx = 0 then Error.withdrawShape.data
  else Error.ctxDoesNotNameRecipient.data

/-- The errors of the settlement, in the order of its checks. -/
def settleErrors (f : Frame) : List (Binding × Bytes) := [(.call, settleCallData f)] ++ spendErrors

theorem transfer_verdict (short : f.data.length = 548) :
    reject ((Spend.decode f.data 4).publicAmount ≠ 0 ∨ (Spend.decode f.data 4).ctx ≠ 0) Error.transferShape.data =
      attributed (Binding.Holds d tx f) [(.call, settleCallData f)] := by
  have shape : ((Spend.decode f.data 4).publicAmount ≠ 0 ∨ (Spend.decode f.data 4).ctx ≠ 0) ↔ ¬ Binding.call.Holds d tx f := by
    rw [Binding.Holds, if_pos short, not_and_or]
  rw [attributed_one, ← reject_congr shape, settleCallData, if_pos short]

theorem withdraw_verdict (long : f.data.length = 580) : (do
      reject (¬ Address.Clean (recipientWord f)) []
      reject ((Spend.decode f.data 4).publicAmount = 0 ∨ (Spend.decode f.data 4).ctx = 0) Error.withdrawShape.data
      reject ((Spend.decode f.data 4).ctx ≠ ctxFor (Address.ofWord (recipientWord f))) Error.ctxDoesNotNameRecipient.data) =
    attributed (Binding.Holds d tx f) [(.call, settleCallData f)] := by
  have other : ¬ f.data.length = 548 := by omega
  have shape : (¬ Address.Clean (recipientWord f) ∨ ((Spend.decode f.data 4).publicAmount = 0 ∨ (Spend.decode f.data 4).ctx = 0) ∨
      (Spend.decode f.data 4).ctx ≠ ctxFor (Address.ofWord (recipientWord f))) ↔ ¬ Binding.call.Holds d tx f := by
    rw [Binding.Holds, if_neg other]
    by_cases clean : Address.Clean (recipientWord f)
    · rw [ctxFor, Address.word_ofWord clean]
      constructor
      · rintro (dirty | (zero | zero) | differs) ⟨amount, recipient, -, named⟩
        · exact dirty clean
        · exact amount zero
        · exact recipient (named ▸ zero)
        · exact differs named
      · intro fails
        by_contra passes
        obtain ⟨-, shaped, named⟩ := not_or.mp passes |>.imp_right not_or.mp
        obtain ⟨amount, ctx⟩ := not_or.mp shaped
        exact fails ⟨amount, not_not.mp named ▸ ctx, clean, not_not.mp named⟩
    · exact iff_of_true (.inl clean) fun holds => clean holds.2.2.1
  rw [attributed_one, ← reject_congr shape, settleCallData, if_neg other, reject_orElse, reject_orElse]

/-- A violated binding stops the settlement with the error of its own check. -/
theorem settlement_error {image : Dispatcher.Image} {data : Bytes} (framed : Framed d tx f) (nonzero : payer.word ≠ 0)
    (thrown : attributed (Binding.Holds d tx f) (settleErrors f) = .error data) :
    Dispatcher.call d image (settleCall tx f payer b) s = .error data := by
  obtain ⟨i, selfPay, placed⟩ := placed_of_framing framed.framing
  have spent := @spend_decides d tx f payer b i selfPay framed placed nonzero
  rw [settleErrors, attributed_append] at thrown
  rw [Dispatcher.call_eq, Logic.call]
  rcases framed.call with ⟨size, selector⟩ | ⟨size, selector⟩
  · have length : (settleCall tx f payer b).data.length = 548 := size
    have selects : Selects (settleCall tx f payer b) .transfer := ⟨by omega, selector⟩
    have checks : Decides (do
        Error.transferShape.throwIf ((Spend.decode f.data 4).publicAmount ≠ 0 ∨ (Spend.decode f.data 4).ctx ≠ 0)
        spend d (Logic.variant d) (settleCall tx f payer b) (Spend.decode f.data 4)) (.error data) := by
      refine ((throwIf_decides _ _).guard spent).congr ?_
      rw [transfer_verdict size, ← bind_assoc, thrown]
      rfl
    rw [dispatch_of_selects selects (fun _ => framed.value) length.ge, body, transfer]
    have stopped (rest : Address → Exec State Reply) := @Decides.stops _ _ _ _ rest _ checks s
    simp only [bind_assoc] at stopped ⊢
    exact stopped _
  · have length : (settleCall tx f payer b).data.length = 580 := size
    have selects : Selects (settleCall tx f payer b) .withdraw := ⟨by omega, selector⟩
    have decoded : Spend.decode (settleCall tx f payer b).data 4 = Spend.decode f.data 4 := rfl
    rw [dispatch_of_selects selects (fun _ => framed.value) length.ge, body, decoded]
    rw [← withdraw_verdict size] at thrown
    by_cases clean : Address.Clean (recipientWord f)
    · rw [reject_neg (not_not.mpr clean)] at thrown
      have arg : addressArg (settleCall tx f payer b) 548 s = .ok (Address.ofWord (recipientWord f), s) :=
        (addressArg_ok _).mpr ⟨(Address.word_ofWord clean).symm, rfl⟩
      have checks : Decides (do
          Error.withdrawShape.throwIf ((Spend.decode f.data 4).publicAmount = 0 ∨ (Spend.decode f.data 4).ctx = 0)
          Error.ctxDoesNotNameRecipient.throwIf ((Spend.decode f.data 4).ctx ≠ ctxFor (Address.ofWord (recipientWord f)))
          spend d (Logic.variant d) (settleCall tx f payer b) (Spend.decode f.data 4)) (.error data) := by
        refine ((throwIf_decides _ _).guard ((throwIf_decides _ _).guard spent)).congr ?_
        have failed := congrArg (fun verdict => verdict >>= fun _ => Except.ok payer) thrown
        simp only [bind_assoc] at failed
        exact failed
      rw [bind_ok arg, withdraw]
      have stopped (rest : Address → Exec State Reply) := @Decides.stops _ _ _ _ rest _ checks s
      simp only [bind_assoc] at stopped ⊢
      exact stopped _
    · rw [bind_assoc, reject_pos clean] at thrown
      have arg : addressArg (settleCall tx f payer b) 548 s = .error [] := by
        rw [addressArg, revertIf_bind]
        exact if_pos clean
      rw [bind_error arg, Except.error.inj thrown]

end Settlement

/-- A withdrawal's recipient word is an address, and it is zero just where `ctx` is unless nothing is withdrawn. -/
def RecipientAgrees (f : Frame) : Prop :=
  f.data.length = 580 → Address.Clean (recipientWord f) ∧
    ((Spend.decode f.data 4).publicAmount = 0 ∨ (recipientWord f = 0 ↔ (Spend.decode f.data 4).ctx = 0))

theorem recipientAgrees_of_holds (holds : Binding.call.Holds d tx f) : RecipientAgrees f := by
  intro long
  have other : ¬ f.data.length = 548 := by omega
  rw [Binding.Holds, if_neg other] at holds
  obtain ⟨-, -, clean, named⟩ := holds
  exact ⟨clean, .inr (by rw [named])⟩

/-- The two errors for a wrong call are one exactly where the recipient agrees. -/
theorem callErrors_agree (framed : Framed d tx f) :
    settleCallData f = (frameCallError f).data ↔ RecipientAgrees f := by
  rcases framed.call with ⟨short, -⟩ | ⟨long, -⟩
  · rw [settleCallData, frameCallError, if_pos short, if_pos short]
    exact iff_of_true rfl fun long => absurd short (by omega)
  · have other : ¬ f.data.length = 548 := by omega
    rw [settleCallData, frameCallError, if_neg other, if_neg other, RecipientAgrees, imp_iff_right long]
    have shape : Error.withdrawShape.data ≠ Error.ctxDoesNotNameRecipient.data := by decide
    by_cases clean : Address.Clean (recipientWord f)
    · by_cases amount : (Spend.decode f.data 4).publicAmount = 0
      · rw [if_neg (not_not.mpr clean), if_pos (.inl amount), if_pos (.inl amount)]
        exact iff_of_true rfl ⟨clean, .inl amount⟩
      · simp only [clean, amount, not_true, false_or, or_false, true_and, if_false]
        by_cases recipient : recipientWord f = 0 <;> by_cases ctx : (Spend.decode f.data 4).ctx = 0
        · rw [if_pos recipient, if_pos ctx]
          exact iff_of_true rfl (iff_of_true recipient ctx)
        · rw [if_pos recipient, if_neg ctx]
          exact iff_of_false shape.symm fun same => ctx (same.mp recipient)
        · rw [if_neg recipient, if_pos ctx]
          exact iff_of_false shape fun same => recipient (same.mpr ctx)
        · rw [if_neg recipient, if_neg ctx]
          exact iff_of_true rfl (iff_of_false recipient ctx)
    · rw [if_pos clean]
      refine iff_of_false ?_ fun both => clean both.1
      rw [if_pos (.inr (.inr clean))]
      decide

theorem hegota_framed {tx : FrameTx} (sender : tx.sender = Hegota.address) (frames : tx.frames = Hegota.transferTx.frames)
    (signatures : tx.signatures = 1) (blobs : tx.blobs = 0) : Framed Hegota.deployment tx Hegota.settleFrame where
  framing := .selfPaid (v := Hegota.verifyFrame) ⟨rfl, rfl, rfl, rfl⟩ rfl rfl frames
  sender := sender
  signatures := signatures
  blobs := blobs
  target := rfl
  mode := rfl
  flags := rfl
  gas := rfl
  value := rfl
  call := .inl ⟨hegota_length, hegota_selector⟩

/-- Its reference and its tuple are right whatever becomes of the nonce and the keys. -/
theorem hegota_holds {tx : FrameTx} (refs : tx.refs = Hegota.transferTx.refs) {b : Binding} (nonce : b ≠ .nonceSeq) (count : b ≠ .keyCount)
    (keys : b ≠ .keys) : b.Holds Hegota.deployment tx Hegota.settleFrame := by
  cases b with
  | nonceSeq => exact absurd rfl nonce
  | keyCount => exact absurd rfl count
  | keys => exact absurd rfl keys
  | refCount => exact congrArg List.length refs
  | refSource =>
    rw [Binding.Holds, refs]
    rintro r same
    rw [← Option.some.inj same]
    exact hegota_sourceId.symm
  | refRoot =>
    rw [Binding.Holds, refs, hegota_spend]
    rintro r same
    rw [← Option.some.inj same]
  | nullifiers => rw [Binding.Holds, hegota_spend]; decide
  | domain => rw [Binding.Holds, hegota_spend, hegota_domain]
  | canonical => rw [Binding.Holds, hegota_spend]; decide
  | amounts => rw [Binding.Holds, hegota_spend]; decide
  | call => rw [Binding.Holds, if_pos hegota_length, hegota_spend]; decide

/-- The recorded transfer with a nonce it cannot have. -/
def numberedTx : FrameTx := { Hegota.transferTx with nonceSeq := 1 }

/-- The recorded transfer with its keys in the wrong order. -/
def swappedTx : FrameTx := { Hegota.transferTx with nonceKeys := [Hegota.transfer.hi, Hegota.transfer.lo], fewKeys := by decide }

theorem numberedTx_framed : Framed Hegota.deployment numberedTx Hegota.settleFrame := hegota_framed rfl rfl rfl rfl

theorem numberedTx_violates : Binding.nonceSeq.OnlyViolated Hegota.deployment numberedTx Hegota.settleFrame := by
  refine ⟨show ¬ (1 : Word) = 0 by decide, fun other differs => ?_⟩
  by_cases count : other = .keyCount
  · rw [count]
    rfl
  · by_cases keys : other = .keys
    · rw [keys, Binding.Holds, hegota_spend]
      exact ⟨fun _ same => (Option.some.inj same).symm, fun _ same => (Option.some.inj same).symm⟩
    · have refs : numberedTx.refs = Hegota.transferTx.refs := rfl
      exact hegota_holds refs differs count keys

theorem swappedTx_violates : Binding.keys.OnlyViolated Hegota.deployment swappedTx Hegota.settleFrame := by
  refine ⟨fun holds => ?_, fun other differs => ?_⟩
  · rw [Binding.Holds, hegota_spend] at holds
    exact absurd (holds.1 _ rfl) (by decide)
  · by_cases count : other = .keyCount
    · rw [count]
      rfl
    · by_cases nonce : other = .nonceSeq
      · rw [nonce]
        rfl
      · have refs : swappedTx.refs = Hegota.transferTx.refs := rfl
        exact hegota_holds refs nonce count differs

/-- When one binding is violated, frame 0 and the settlement throw the same error exactly if the nonce
is zero, there is one reference, and a withdrawal's recipient agrees with its `ctx` in being zero. -/
theorem rejections_attributable {image : Dispatcher.Image} {auth : Call} {b : Block} {s : State} {binding : Binding} (framed : Framed d tx f)
    (nonzero : payer.word ≠ 0) (only : binding.OnlyViolated d tx f) :
    (∃ e : Error, Dispatcher.authorize d image auth (tx.opcodes 0 none) = .error e.data ∧
      Dispatcher.call d image (settleCall tx f payer b) s = .error e.data) ↔
      tx.nonceSeq = 0 ∧ tx.refs.length = 1 ∧ RecipientAgrees f := by
  have frame {data : Bytes} (listed : (frameErrors f).lookup binding = some data) :=
    @authorize_error d tx f image auth data framed (attributed_only only.violated only.others listed)
  have settlement {data : Bytes} (listed : (settleErrors f).lookup binding = some data) :=
    @settlement_error d tx f payer b s image data framed nonzero (attributed_only only.violated only.others listed)
  -- away from the call, the nonce and the number of references both lists name the same error
  have agree {e : Error} (bound : binding ≠ .nonceSeq ∧ binding ≠ .refCount ∧ binding ≠ .call)
      (first : (frameErrors f).lookup binding = some e.data) (second : (settleErrors f).lookup binding = some e.data) :
      (∃ e : Error, Dispatcher.authorize d image auth (tx.opcodes 0 none) = .error e.data ∧
        Dispatcher.call d image (settleCall tx f payer b) s = .error e.data) ↔
        tx.nonceSeq = 0 ∧ tx.refs.length = 1 ∧ RecipientAgrees f :=
    iff_of_true ⟨e, frame first, settlement second⟩ ⟨only.others .nonceSeq bound.1.symm, only.others .refCount bound.2.1.symm,
      recipientAgrees_of_holds (only.others .call bound.2.2.symm)⟩
  cases binding with
  | nonceSeq =>
    refine iff_of_false ?_ fun condition => only.violated condition.1
    rintro ⟨e, first, second⟩
    have same := (Except.error.inj (first.symm.trans (frame rfl))).symm.trans (Except.error.inj (second.symm.trans (settlement rfl)))
    exact absurd same (by decide)
  | refCount =>
    refine iff_of_false ?_ fun condition => only.violated condition.2.1
    rintro ⟨e, first, second⟩
    have same := (Except.error.inj (first.symm.trans (frame rfl))).symm.trans (Except.error.inj (second.symm.trans (settlement rfl)))
    exact absurd same (by decide)
  | call =>
    have nonce : tx.nonceSeq = 0 := only.others .nonceSeq nofun
    have refs : tx.refs.length = 1 := only.others .refCount nofun
    rw [← callErrors_agree framed, frame rfl, settlement rfl]
    constructor
    · rintro ⟨e, first, second⟩
      exact ⟨nonce, refs, (Except.error.inj second).trans (Except.error.inj first).symm⟩
    · rintro ⟨-, -, same⟩
      exact ⟨frameCallError f, rfl, congrArg Except.error same⟩
  | keyCount | keys | refSource | refRoot | nullifiers | domain | canonical | amounts => exact agree ⟨nofun, nofun, nofun⟩ rfl rfl

theorem rejections_attributable_swapped :
    ∃ e : Error, Dispatcher.authorize Hegota.deployment Hegota.image ⟨Hegota.address, 0, [], 0, none, Hegota.block.publishes⟩
        (swappedTx.opcodes 0 none) = .error e.data ∧
      Dispatcher.call Hegota.deployment Hegota.image (settleCall swappedTx Hegota.settleFrame Hegota.address Hegota.block) genesis =
        .error e.data := by
  have framed : Framed Hegota.deployment swappedTx Hegota.settleFrame := hegota_framed rfl rfl rfl rfl
  have agrees : RecipientAgrees Hegota.settleFrame := fun long => absurd (hegota_length.symm.trans long) (by decide)
  exact (rejections_attributable framed (by decide) swappedTx_violates).mpr ⟨rfl, rfl, agrees⟩

/-- With nonce 1 frame 0 answers NotFaithfulShape and the settlement KeySetMismatch. -/
theorem rejections_not_attributable :
    Framed Hegota.deployment numberedTx Hegota.settleFrame ∧
      Binding.nonceSeq.OnlyViolated Hegota.deployment numberedTx Hegota.settleFrame ∧
      Dispatcher.authorize Hegota.deployment Hegota.image ⟨Hegota.address, 0, [], 0, none, Hegota.block.publishes⟩
        (numberedTx.opcodes 0 none) = .error Error.notFaithfulShape.data ∧
      Dispatcher.call Hegota.deployment Hegota.image (settleCall numberedTx Hegota.settleFrame Hegota.address Hegota.block) genesis =
        .error Error.keySetMismatch.data ∧
      Error.notFaithfulShape.data ≠ Error.keySetMismatch.data := by
  have only := numberedTx_violates
  have payer : Hegota.address.word ≠ 0 := by decide
  exact ⟨numberedTx_framed, only, authorize_error numberedTx_framed (attributed_only only.violated only.others rfl),
    settlement_error numberedTx_framed payer (attributed_only only.violated only.others rfl), by decide⟩

end ShieldedPool.Proofs
