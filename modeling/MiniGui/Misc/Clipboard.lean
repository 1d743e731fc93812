import Mathlib

namespace MiniGui

structure Clipboard where
  name : List UInt8
  buffLen : Nat
  data : List UInt8
  fits : data.length ≤ buffLen
  word : buffLen < 2 ^ 32

structure CbEnv where
  malloc : BitVec 32 → Bool
  junk : UInt8

structure CbResult where
  ret : BitVec 32
  out : List UInt8
deriving DecidableEq, Repr

inductive CbCall where
  | create (name : List UInt8) (size : BitVec 32)
  | destroy (name : List UInt8)
  | setData (name data : List UInt8) (append : Bool)
  | getDataLen (name : List UInt8)
  | getData (name : List UInt8) (n : BitVec 32)
  | getByte (name : List UInt8) (index : BitVec 32)

def lenClipboardName : Nat := 15

def cberrOk : BitVec 32 := 0

def cberrBadname : BitVec 32 := 1

def cberrNomem : BitVec 32 := 2

def Clipboard.Named (cbName : List UInt8) (cb : Clipboard) : Prop :=
  cbName.take lenClipboardName = cb.name.take lenClipboardName

instance (cbName : List UInt8) (cb : Clipboard) : Decidable (cb.Named cbName) :=
  inferInstanceAs (Decidable (_ = _))

def getClipboard (cbs : List Clipboard) (cbName : List UInt8) : Option Clipboard :=
  cbs.find? fun cb => decide (cb.Named cbName)

def freeClipboard : Clipboard :=
  ⟨[], 0, [], Nat.le_refl 0, by decide⟩

def createClipBoard (env : CbEnv) (cbs : List Clipboard) (cbName : List UInt8) (size : BitVec 32)
    : BitVec 32 × List Clipboard :=
  if size = 0 then
    (-1, cbs)
  else if (getClipboard cbs cbName).isSome then
    (cberrBadname, cbs)
  else
    match cbs.findIdx? fun cb => cb.name.isEmpty with
    | none => (cberrOk, cbs)
    | some i =>
      if env.malloc size then
        (cberrOk, cbs.set i ⟨cbName.take lenClipboardName, size.toNat, [], Nat.zero_le _, size.isLt⟩)
      else
        (cberrNomem, cbs)

def destroyClipBoard (cbs : List Clipboard) (cbName : List UInt8) : BitVec 32 × List Clipboard :=
  match cbs.findIdx? fun cb => cb.name == cbName with
  | some i => (cberrOk, cbs.set i freeClipboard)
  | none => (cberrBadname, cbs)

def Clipboard.room (cb : Clipboard) (n : Nat) (append : Bool) : Nat :=
  if append then min n (cb.buffLen - cb.data.length) else min n cb.buffLen

theorem Clipboard.append_le (cb : Clipboard) (data : List UInt8) (n : Nat)
    : (cb.data ++ data.take (cb.room n true)).length ≤ cb.buffLen := by
  unfold Clipboard.room
  have hfits := cb.fits
  rw [if_pos rfl, List.length_append, List.length_take]
  omega

theorem Clipboard.normal_le (cb : Clipboard) (data : List UInt8) (n : Nat)
    : (data.take (cb.room n false)).length ≤ cb.buffLen := by
  unfold Clipboard.room
  rw [if_neg Bool.false_ne_true, List.length_take]
  omega

def Clipboard.store (cb : Clipboard) (data : List UInt8) (n : Nat) : Bool → Clipboard
  | true => { cb with data := cb.data ++ data.take (cb.room n true), fits := cb.append_le data n }
  | false => { cb with data := data.take (cb.room n false), fits := cb.normal_le data n }

def setClipBoardData (cbs : List Clipboard) (cbName data : List UInt8) (n : BitVec 32) (append : Bool)
    : BitVec 32 × List Clipboard :=
  match cbs.findIdx? fun cb => decide (cb.Named cbName) with
  | none => (cberrBadname, cbs)
  | some i => (cberrOk, cbs.modify i fun cb => cb.store data n.toNat append)

def setClipBoardRead (cbs : List Clipboard) (cbName : List UInt8) (n : BitVec 32) (append : Bool) : Nat :=
  match getClipboard cbs cbName with
  | none => 0
  | some cb => cb.room n.toNat append

def getClipBoardDataLen (cbs : List Clipboard) (cbName : List UInt8) : BitVec 32 :=
  match getClipboard cbs cbName with
  | some cb => BitVec.ofNat 32 cb.data.length
  | none => 0

def getClipBoardData (cbs : List Clipboard) (cbName : List UInt8) (n : BitVec 32) : CbResult :=
  if n = 0 then
    ⟨-1, []⟩
  else
    match getClipboard cbs cbName with
    | some cb => ⟨BitVec.ofNat 32 (min n.toNat cb.data.length), cb.data.take (min n.toNat cb.data.length)⟩
    | none => ⟨0, []⟩

def getClipBoardByte (cbs : List Clipboard) (cbName : List UInt8) (index : BitVec 32) : CbResult :=
  match getClipboard cbs cbName with
  | some cb =>
    if index.toInt < 0 then
      ⟨cberrNomem, []⟩
    else
      match cb.data[index.toNat]? with
      | some byte => ⟨cberrOk, [byte]⟩
      | none => ⟨cberrNomem, []⟩
  | none => ⟨cberrBadname, []⟩

def CbCall.here (env : CbEnv) (cbs : List Clipboard) : CbCall → CbResult × List Clipboard
  | create name size =>
    let (ret, cbs) := createClipBoard env cbs name size
    (⟨ret, []⟩, cbs)
  | destroy name =>
    let (ret, cbs) := destroyClipBoard cbs name
    (⟨ret, []⟩, cbs)
  | setData name data append =>
    let (ret, cbs) := setClipBoardData cbs name data (BitVec.ofNat 32 data.length) append
    (⟨ret, []⟩, cbs)
  | getDataLen name => (⟨getClipBoardDataLen cbs name, []⟩, cbs)
  | getData name n => (getClipBoardData cbs name n, cbs)
  | getByte name index => (getClipBoardByte cbs name index, cbs)

inductive CbReq where
  | create
  | destroy
  | setData
  | getDataLen
  | getData
  | getByte
deriving DecidableEq, Repr

structure ReqClipboard where
  id : CbReq
  name : List UInt8
  append : Bool
  lenData : BitVec 32
  data : List UInt8

def sizeofReq : Nat := 28

def ReqClipboard.received (request : ReqClipboard) : Nat :=
  sizeofReq + request.data.length

def CbCall.request : CbCall → ReqClipboard
  | create name size => ⟨.create, name.take lenClipboardName, false, size, []⟩
  | destroy name => ⟨.destroy, name.take lenClipboardName, false, 0, []⟩
  | setData name data append =>
    ⟨.setData, name.take lenClipboardName, append, BitVec.ofNat 32 data.length, data⟩
  | getDataLen name => ⟨.getDataLen, name.take lenClipboardName, false, 0, []⟩
  | getData name n => ⟨.getData, name.take lenClipboardName, false, n, []⟩
  | getByte name index => ⟨.getByte, name.take lenClipboardName, false, index, []⟩

def wordBytes (w : BitVec 32) : List UInt8 :=
  [UInt8.ofNat w.toNat, UInt8.ofNat (w.toNat / 2 ^ 8), UInt8.ofNat (w.toNat / 2 ^ 16), UInt8.ofNat (w.toNat / 2 ^ 24)]

def replyWord : List UInt8 → Option (BitVec 32)
  | b0 :: b1 :: b2 :: b3 :: _ =>
    some (BitVec.ofNat 32 (b0.toNat + 2 ^ 8 * b1.toNat + 2 ^ 16 * b2.toNat + 2 ^ 24 * b3.toNat))
  | _ => none

def clipboardOp (env : CbEnv) (cbs : List Clipboard) (request : ReqClipboard) : List UInt8 × List Clipboard × Nat :=
  match request.id with
  | .create =>
    let (_, cbs) := createClipBoard env cbs request.name request.lenData
    (wordBytes cberrOk, cbs, sizeofReq)
  | .destroy =>
    let (_, cbs) := destroyClipBoard cbs request.name
    (wordBytes cberrOk, cbs, sizeofReq)
  | .setData =>
    let (_, cbs') := setClipBoardData cbs request.name request.data request.lenData request.append
    (wordBytes cberrOk, cbs', sizeofReq + setClipBoardRead cbs request.name request.lenData request.append)
  | .getDataLen => (wordBytes cberrOk ++ wordBytes (getClipBoardDataLen cbs request.name), cbs, sizeofReq)
  | .getData =>
    match getClipboard cbs request.name with
    | none => (wordBytes (-1), cbs, sizeofReq)
    | some cb =>
      let dlen := min request.lenData.toNat cb.data.length
      (wordBytes cberrOk ++ wordBytes (BitVec.ofNat 32 dlen) ++ cb.data.take dlen, cbs, sizeofReq)
  | .getByte =>
    let ch := (getClipBoardByte cbs request.name request.lenData).out.headD env.junk
    (wordBytes cberrOk ++ [ch], cbs, sizeofReq)

def CbCall.lenRslt : CbCall → BitVec 32
  | create _ _ => 4
  | destroy _ => 4
  | setData _ _ _ => 4
  | getDataLen _ => 8
  | getData _ n => 8 + n
  | getByte _ _ => 8

def CbCall.bytesRead (call : CbCall) : Nat :=
  call.lenRslt.toInt.toNat

/--
The client's half, from the bytes it has read. A word it has not read is not known.
-/
def CbCall.answer (call : CbCall) (bytes : List UInt8) : Option CbResult :=
  match call with
  | create _ _ => (replyWord bytes).map (⟨·, []⟩)
  | destroy _ => (replyWord bytes).map (⟨·, []⟩)
  | setData _ _ _ => (replyWord bytes).map (⟨·, []⟩)
  | getDataLen _ =>
    (replyWord bytes).bind fun w => if w = cberrOk then (replyWord (bytes.drop 4)).map (⟨·, []⟩) else some ⟨w, []⟩
  | getData _ _ =>
    (replyWord bytes).bind fun w => (replyWord (bytes.drop 4)).map fun len =>
      ⟨len, if w = cberrOk then (bytes.drop 8).take len.toNat else []⟩
  | getByte _ _ =>
    (replyWord bytes).bind fun w =>
      if w = cberrOk then (replyWord (bytes.drop 4)).map fun byte => ⟨w, [UInt8.ofNat byte.toNat]⟩ else some ⟨w, []⟩

def CbCall.there (env : CbEnv) (cbs : List Clipboard) (call : CbCall) : Option CbResult :=
  let reply := (clipboardOp env cbs call.request).1
  if reply.length < call.bytesRead then none else call.answer (reply.take call.bytesRead)

open CbCall (answer create destroy getData request there)

structure WireAgrees (env : CbEnv) (cbs : List Clipboard) (call : CbCall) : Prop where
  inStep : (clipboardOp env cbs call.request).1.length = call.bytesRead
  result : call.there env cbs = some (call.here env cbs).1
  reads : (clipboardOp env cbs call.request).2.2 ≤ call.request.received

def CbCall.Ok (env : CbEnv) (cbs : List Clipboard) : CbCall → Prop
  | create name size =>
    size ≠ 0 ∧ (∀ cb ∈ cbs, ¬cb.Named name) ∧ ((∀ cb ∈ cbs, cb.name ≠ []) ∨ env.malloc size = true)
  | destroy name => ∃ cb ∈ cbs, cb.name = name
  | setData name _ _ => ∃ cb ∈ cbs, cb.Named name
  | getDataLen _ => True
  | getData name n =>
    n ≠ 0 ∧ n.toNat + 8 < 2 ^ 31 ∧ ∃ cb, getClipboard cbs name = some cb ∧ n.toNat ≤ cb.data.length
  | getByte _ _ => False

theorem replyWord_append (w : BitVec 32) (rest : List UInt8) : replyWord (wordBytes w ++ rest) = some w := by
  unfold wordBytes
  simp only [List.cons_append, replyWord, UInt8.toNat_ofNat']
  congr 1
  apply BitVec.eq_of_toNat_eq
  rw [BitVec.toNat_ofNat]
  omega

theorem replyWord_wordBytes (w : BitVec 32) : replyWord (wordBytes w) = some w := by
  have h := replyWord_append w []
  rw [List.append_nil] at h
  exact h

@[simp]
theorem wordBytes_length (w : BitVec 32) : (wordBytes w).length = 4 := rfl

theorem drop_wordBytes (w : BitVec 32) (rest : List UInt8) : (wordBytes w ++ rest).drop 4 = rest := rfl

variable {name : List UInt8}

section Server

variable {env : CbEnv} {cbs : List Clipboard}

theorem named_take (cb : Clipboard) (name : List UInt8) : cb.Named (name.take lenClipboardName) ↔ cb.Named name := by
  unfold Clipboard.Named
  rw [List.take_take, Nat.min_self]

theorem getClipboard_take (cbs : List Clipboard) (name : List UInt8)
    : getClipboard cbs (name.take lenClipboardName) = getClipboard cbs name := by
  unfold getClipboard
  congr 1
  funext cb
  rw [decide_eq_decide]
  exact named_take cb name

theorem getClipboard_isSome : (getClipboard cbs name).isSome = true ↔ ∃ cb ∈ cbs, cb.Named name := by
  unfold getClipboard
  rw [List.find?_isSome]
  constructor
  . rintro ⟨cb, hcb, hnamed⟩
    exact ⟨cb, hcb, of_decide_eq_true hnamed⟩
  . rintro ⟨cb, hcb, hnamed⟩
    exact ⟨cb, hcb, decide_eq_true hnamed⟩

theorem createClipBoard_ok (name : List UInt8) (size : BitVec 32)
    : (createClipBoard env cbs name size).1 = cberrOk ↔ (create name size).Ok env cbs := by
  have hfree : cbs.findIdx? (fun cb => cb.name.isEmpty) = none ↔ ∀ cb ∈ cbs, cb.name ≠ [] := by
    rw [List.findIdx?_eq_none_iff]
    constructor
    . intro h cb hcb hnil
      have hempty := h cb hcb
      rw [hnil] at hempty
      cases hempty
    . intro h cb hcb
      rw [← Bool.not_eq_true, List.isEmpty_iff]
      exact h cb hcb
  unfold createClipBoard CbCall.Ok
  by_cases hsize : size = 0
  . rw [if_pos hsize]
    exact iff_of_false (by decide : (-1 : BitVec 32) ≠ cberrOk) (fun hand => hand.1 hsize)
  rw [if_neg hsize]
  by_cases htaken : (getClipboard cbs name).isSome = true
  . rw [if_pos htaken]
    obtain ⟨cb, hcb, hnamed⟩ := getClipboard_isSome.mp htaken
    exact iff_of_false (by decide : cberrBadname ≠ cberrOk) (fun hand => hand.2.1 cb hcb hnamed)
  rw [if_neg htaken]
  have hnone : ∀ cb ∈ cbs, ¬cb.Named name := fun cb hcb hnamed => htaken (getClipboard_isSome.mpr ⟨cb, hcb, hnamed⟩)
  split
  . next hfull => exact iff_of_true rfl ⟨hsize, hnone, Or.inl (hfree.mp hfull)⟩
  rename_i i hi
  split
  . next hmalloc => exact iff_of_true rfl ⟨hsize, hnone, Or.inr hmalloc⟩
  rename_i hmalloc
  apply iff_of_false (by decide : cberrNomem ≠ cberrOk)
  rintro ⟨_, _, hfull | h⟩
  . rw [hfree.mpr hfull] at hi
    cases hi
  . exact hmalloc h

theorem destroyClipBoard_ok (name : List UInt8)
    : (destroyClipBoard cbs name).1 = cberrOk ↔ (destroy name).Ok env cbs := by
  unfold destroyClipBoard CbCall.Ok
  split
  . next i hi =>
    apply iff_of_true rfl
    obtain ⟨hlt, hname, _⟩ := List.findIdx?_eq_some_iff_getElem.mp hi
    exact ⟨cbs[i], List.getElem_mem hlt, eq_of_beq hname⟩
  rename_i hnone
  apply iff_of_false (by decide : cberrBadname ≠ cberrOk)
  rintro ⟨cb, hcb, hname⟩
  have hne := List.findIdx?_eq_none_iff.mp hnone cb hcb
  rw [hname, beq_self_eq_true] at hne
  cases hne

theorem setClipBoardData_ok (name data : List UInt8) (n : BitVec 32) (append : Bool)
    : (setClipBoardData cbs name data n append).1 = cberrOk ↔ ∃ cb ∈ cbs, cb.Named name := by
  unfold setClipBoardData
  split
  . next hnone =>
    apply iff_of_false (by decide : cberrBadname ≠ cberrOk)
    rintro ⟨cb, hcb, hnamed⟩
    have hne := List.findIdx?_eq_none_iff.mp hnone cb hcb
    rw [decide_eq_true hnamed] at hne
    cases hne
  rename_i i hi
  apply iff_of_true rfl
  obtain ⟨hlt, hname, _⟩ := List.findIdx?_eq_some_iff_getElem.mp hi
  exact ⟨cbs[i], List.getElem_mem hlt, of_decide_eq_true hname⟩

theorem room_le (cb : Clipboard) (n : Nat) (append : Bool) : cb.room n append ≤ n := by
  unfold Clipboard.room
  split
  . exact Nat.min_le_left _ _
  . exact Nat.min_le_left _ _

theorem setClipBoardRead_le (name : List UInt8) (n : BitVec 32) (append : Bool)
    : setClipBoardRead cbs name n append ≤ n.toNat := by
  unfold setClipBoardRead
  split
  . exact Nat.zero_le _
  . exact room_le _ _ _

end Server

section Wire

variable {env : CbEnv} {cbs : List Clipboard}

theorem wireAgrees_word {call : CbCall} {ret : BitVec 32}
    (hreply : (clipboardOp env cbs call.request).1 = wordBytes cberrOk)
    (hread : call.bytesRead = 4) (hanswer : ∀ bytes, call.answer bytes = (replyWord bytes).map (⟨·, []⟩))
    (hhere : (call.here env cbs).1 = ⟨ret, []⟩) (hreads : (clipboardOp env cbs call.request).2.2 ≤ call.request.received)
    : WireAgrees env cbs call ↔ ret = cberrOk := by
  have hthere : call.there env cbs = some ⟨cberrOk, []⟩ := by
    unfold there
    dsimp only
    rw [hreply, hread, hanswer]
    rfl
  constructor
  . intro h
    have hresult := h.result
    rw [hthere, hhere] at hresult
    exact (congrArg CbResult.ret (Option.some.inj hresult)).symm
  intro hret
  refine ⟨?_, ?_, hreads⟩
  . rw [hreply, hread]
    rfl
  . rw [hthere, hhere, hret]

theorem wireAgrees_create (name : List UInt8) (size : BitVec 32)
    : WireAgrees env cbs (.create name size) ↔ (create name size).Ok env cbs := by
  rw [← createClipBoard_ok]
  exact wireAgrees_word rfl rfl (fun _ => rfl) rfl (Nat.le_refl _)

theorem wireAgrees_destroy (name : List UInt8)
    : WireAgrees env cbs (.destroy name) ↔ (destroy name).Ok env cbs := by
  rw [← destroyClipBoard_ok]
  exact wireAgrees_word rfl rfl (fun _ => rfl) rfl (Nat.le_refl _)

theorem wireAgrees_setData (name data : List UInt8) (append : Bool)
    : WireAgrees env cbs (.setData name data append) ↔ (CbCall.setData name data append).Ok env cbs := by
  refine Iff.trans (wireAgrees_word rfl rfl (fun _ => rfl) rfl ?_)
    (setClipBoardData_ok name data (BitVec.ofNat 32 data.length) append)
  apply Nat.add_le_add_left
  refine Nat.le_trans (setClipBoardRead_le _ _ _) ?_
  change (BitVec.ofNat 32 data.length).toNat ≤ data.length
  rw [BitVec.toNat_ofNat]
  exact Nat.mod_le _ _

theorem wireAgrees_getDataLen (name : List UInt8) : WireAgrees env cbs (.getDataLen name) := by
  have hreply : (clipboardOp env cbs (CbCall.getDataLen name).request).1
      = wordBytes cberrOk ++ wordBytes (getClipBoardDataLen cbs name) := by
    change wordBytes cberrOk ++ wordBytes (getClipBoardDataLen cbs (name.take lenClipboardName)) = _
    unfold getClipBoardDataLen
    rw [getClipboard_take]
  refine ⟨?_, ?_, Nat.le_refl _⟩
  . rw [hreply]
    rfl
  unfold there
  rw [hreply]
  change (replyWord (wordBytes cberrOk)).bind (fun w => if w = cberrOk then
    (replyWord (wordBytes (getClipBoardDataLen cbs name))).map (CbResult.mk · []) else some (CbResult.mk w [])) = _
  rw [replyWord_wordBytes, replyWord_wordBytes]
  rfl

theorem not_wireAgrees_getByte (name : List UInt8) (index : BitVec 32) : ¬WireAgrees env cbs (.getByte name index) := by
  intro h
  have hlength := h.inStep
  cases hlength

theorem bytesRead_getData (name : List UInt8) (n : BitVec 32)
    : (getData name n).bytesRead = if (8 + n.toNat) % 2 ^ 32 < 2 ^ 31 then (8 + n.toNat) % 2 ^ 32 else 0 := by
  have hsum : (8#32 + n).toNat = (8 + n.toNat) % 2 ^ 32 := BitVec.toNat_add _ _
  change (8#32 + n).toInt.toNat = _
  rw [BitVec.toInt_eq_toNat_cond, hsum]
  split
  . rw [if_pos (by omega)]
    omega
  . rw [if_neg (by omega)]
    omega

theorem there_getData_none (hnone : getClipboard cbs name = none) (n : BitVec 32)
    : (getData name n).there env cbs = none := by
  have hreply : (clipboardOp env cbs (getData name n).request).1 = wordBytes (-1) := by
    unfold clipboardOp
    dsimp only [request]
    rw [getClipboard_take, hnone]
  unfold there
  dsimp only
  rw [hreply]
  split
  . rfl
  unfold answer
  have hrest : (List.take (getData name n).bytesRead (wordBytes (-1))).drop 4 = [] := by
    apply List.drop_eq_nil_of_le
    exact List.length_take_le' _ _
  rw [hrest]
  cases replyWord (List.take (getData name n).bytesRead (wordBytes (-1))) with
  | none => rfl
  | some w => rfl

variable {cb : Clipboard}

theorem reply_getData (hcb : getClipboard cbs name = some cb) (n : BitVec 32)
    : (clipboardOp env cbs (getData name n).request).1 = wordBytes cberrOk
      ++ wordBytes (BitVec.ofNat 32 (min n.toNat cb.data.length)) ++ cb.data.take (min n.toNat cb.data.length) := by
  unfold clipboardOp
  dsimp only [request]
  rw [getClipboard_take, hcb]

theorem length_reply_getData {name : List UInt8} {cb : Clipboard} (hcb : getClipboard cbs name = some cb)
    (n : BitVec 32)
    : (clipboardOp env cbs (getData name n).request).1.length = 8 + min n.toNat cb.data.length := by
  rw [reply_getData hcb, List.length_append, List.length_append, wordBytes_length, wordBytes_length, List.length_take]
  omega

theorem there_getData_some (hcb : getClipboard cbs name = some cb) (n : BitVec 32)
    (hstep : (clipboardOp env cbs (getData name n).request).1.length = (getData name n).bytesRead)
    : (getData name n).there env cbs
      = some ⟨BitVec.ofNat 32 (min n.toNat cb.data.length), cb.data.take (min n.toNat cb.data.length)⟩ := by
  have hlen : (BitVec.ofNat 32 (min n.toNat cb.data.length)).toNat = min n.toNat cb.data.length := by
    rw [BitVec.toNat_ofNat]
    apply Nat.mod_eq_of_lt
    omega
  unfold there
  dsimp only
  rw [hstep, if_neg (Nat.lt_irrefl _), ← hstep, List.take_length, reply_getData hcb]
  unfold answer
  rw [List.append_assoc, replyWord_append, drop_wordBytes, replyWord_append]
  change some (⟨_, if cberrOk = cberrOk then List.take _ (cb.data.take (min n.toNat cb.data.length)) else []⟩ : CbResult) = _
  rw [if_pos rfl, hlen, List.take_take, Nat.min_self]

theorem wireAgrees_getData (name : List UInt8) (n : BitVec 32)
    : WireAgrees env cbs (.getData name n) ↔ (getData name n).Ok env cbs := by
  cases hfound : getClipboard cbs name with
  | none =>
    apply iff_of_false
    . intro h
      have hresult := h.result
      rw [there_getData_none hfound] at hresult
      cases hresult
    . rintro ⟨_, _, cb, hcb, _⟩
      rw [hfound] at hcb
      cases hcb
  | some cb =>
    have hlength := @length_reply_getData env cbs name cb hfound n
    have hread := bytesRead_getData name n
    constructor
    . intro h
      have hstep := h.inStep
      have hthere := there_getData_some hfound n hstep
      rw [hlength, hread] at hstep
      have hzero : n ≠ 0 := by
        intro hn
        have hresult := h.result
        rw [hthere, hn] at hresult
        have hret := congrArg CbResult.ret (Option.some.inj hresult)
        have hmin : min (0 : BitVec 32).toNat cb.data.length = 0 := Nat.zero_min _
        rw [hmin] at hret
        exact absurd hret (by decide : (0 : BitVec 32) ≠ -1)
      refine ⟨hzero, ?_, cb, hfound, ?_⟩
      . split at hstep
        . omega
        . omega
      . split at hstep
        . omega
        . omega
    rintro ⟨hzero, hsmall, cb', hcb', hle⟩
    rw [hfound] at hcb'
    cases hcb'
    have hstep : (clipboardOp env cbs (getData name n).request).1.length = (getData name n).bytesRead := by
      rw [hlength, hread, if_pos (by omega)]
      omega
    refine ⟨hstep, ?_, ?_⟩
    . rw [there_getData_some hfound n hstep]
      change _ = some (getClipBoardData cbs name n)
      unfold getClipBoardData
      rw [if_neg hzero, hfound]
    unfold clipboardOp
    dsimp only [request]
    rw [getClipboard_take, hfound]
    exact Nat.le_refl _

end Wire

/--
A call agrees if and only if it is no error, asks for no more than there is, and is not one for a byte.
-/
theorem wireAgrees_iff (env : CbEnv) (cbs : List Clipboard) (call : CbCall)
    : WireAgrees env cbs call ↔ call.Ok env cbs := by
  cases call with
  | create name size => exact wireAgrees_create name size
  | destroy name => exact wireAgrees_destroy name
  | setData name data append => exact wireAgrees_setData name data append
  | getDataLen name => exact iff_of_true (wireAgrees_getDataLen name) trivial
  | getData name n => exact wireAgrees_getData name n
  | getByte name index => exact iff_of_false (not_wireAgrees_getByte name index) id

theorem not_wireAgrees_byte : ¬WireAgrees ⟨fun _ => true,
    0⟩ [⟨[116], 4, [65], by decide, by decide⟩] (.getByte [116] 0) := by
  intro h
  have hlength := h.inStep
  cases hlength

end MiniGui
