/-
The sweep of the embedded store. A key of the expiry index is a time and a message id; the sweep reads the keys that
are due and deletes the messages they name, but it leaves the keys to the deletions, which know the time from the
record.
-/
import AffinidiTdk.Store.ExpirySweep
import AffinidiTdk.Store.Pagination

namespace AffinidiTdk.Store.Fjall

open Function List OrdMap
open Acl Bytes

/-! ## Keys -/

theorem mem_ofString_lt {s : String} {b : ℕ} (h : b ∈ ofString s) : b < 255 := by
  obtain ⟨chars, hchars⟩ := s.isValidUTF8
  obtain ⟨byte, hbyte, rfl⟩ := mem_map.1 h
  have hmem : byte ∈ chars.flatMap String.utf8EncodeChar := by
    have hlist : s.toByteArray.data.toList = chars.flatMap String.utf8EncodeChar := by
      rw [hchars, List.utf8Encode]
      simp
    exact hlist ▸ hbyte
  obtain ⟨c, -, hc⟩ := mem_flatMap.1 hmem
  unfold String.utf8EncodeChar at hc
  dsimp only at hc
  split at hc
  · simp only [mem_cons, not_mem_nil, or_false] at hc
    rw [hc, UInt8.toNat_ofNat']
    omega
  · split at hc
    · simp only [mem_cons, not_mem_nil, or_false] at hc
      rcases hc with rfl | rfl <;> rw [UInt8.toNat_ofNat'] <;> omega
    · split at hc
      · simp only [mem_cons, not_mem_nil, or_false] at hc
        rcases hc with rfl | rfl | rfl <;> rw [UInt8.toNat_ofNat'] <;> omega
      · simp only [mem_cons, not_mem_nil, or_false] at hc
        rcases hc with rfl | rfl | rfl | rfl <;> rw [UInt8.toNat_ofNat'] <;> omega

theorem pow_eq : (256 : ℕ) ^ 8 = 2 ^ 64 := by norm_num

variable {t : ℕ}

theorem take_expiryKey (ht : t < 2 ^ 64) (m : String) : ofBeBytes ((expiryKey t m).take 8) = t := by
  rw [expiryKey, take_left' (length_beBytes 8 t), ofBeBytes_beBytes (pow_eq ▸ ht)]

theorem drop_expiryKey (t : ℕ) (m : String) : stringOf ((expiryKey t m).drop 8) = m := by
  rw [expiryKey, drop_left' (length_beBytes 8 t), stringOf_ofString]

theorem expiryKey_inj {t' : ℕ} {m m' : String} (ht : t < 2 ^ 64) (ht' : t' < 2 ^ 64)
    (h : expiryKey t m = expiryKey t' m') : t = t' ∧ m = m' :=
  ⟨by rw [← take_expiryKey ht m, h, take_expiryKey ht'], by rw [← drop_expiryKey t m, h, drop_expiryKey]⟩

theorem streamKey_inj {did did' : String} {sid sid' : StreamId} (h : Words sid) (h' : Words sid')
    (heq : streamKey did sid = streamKey did' sid') : did = did' ∧ sid = sid' := by
  obtain ⟨hdid, hsid⟩ := append_inj' heq (by rw [length_encodeStreamId, length_encodeStreamId])
  have hdecode := congrArg decodeStreamId hsid
  rw [decode_encodeStreamId h, decode_encodeStreamId h'] at hdecode
  exact ⟨ofString_injective hdid, Option.some.inj hdecode⟩

theorem due_iff {nowSecs : ℕ} (hzero : t ≠ 0) (ht : t < 2 ^ 64) (hnow : nowSecs < 2 ^ 64) (m : String) :
    (List.replicate 72 0 ≤ expiryKey t m ∧ expiryKey t m ≤ beBytes 8 nowSecs ++ List.replicate 64 255) ↔ t ≤
    nowSecs := by
  have hlower : List.replicate 72 0 ≤ expiryKey t m := by
    have hsplit : List.replicate 72 0 = beBytes 8 0 ++ List.replicate 64 0 := by decide
    rw [hsplit, expiryKey]
    refine (append_lt_append_of_lt ?_ (beBytes_lt (Nat.pos_of_ne_zero hzero) (pow_eq ▸ ht)) _ _).le
    rw [length_beBytes, length_beBytes]
  have hlength : ∀ a b : ℕ, (beBytes 8 a).length = (beBytes 8 b).length := fun a b => by
    rw [length_beBytes, length_beBytes]
  constructor
  · rintro ⟨-, hupper⟩
    by_contra hlt
    have hgt := append_lt_append_of_lt (hlength nowSecs t) (beBytes_lt (not_le.1 hlt) (pow_eq ▸ ht))
      (List.replicate 64 255) (ofString m)
    exact absurd hgt (not_lt.2 hupper)
  · intro hle
    refine ⟨hlower, ?_⟩
    rcases hle.lt_or_eq with hlt | rfl
    · exact (append_lt_append_of_lt (hlength t nowSecs) (beBytes_lt hlt (pow_eq ▸ hnow)) _ _).le
    · rw [expiryKey, ← not_lt, append_lt_append_iff, not_lt]
      -- the first byte of the id decides
      cases hid : ofString m with
      | nil => exact (nil_lt_cons 255 _).le
      | cons b rest =>
        have hb : b < 255 := mem_ofString_lt (by rw [hid]; exact mem_cons_self)
        exact (cons_lt_cons_iff.2 (.inl hb) : b :: rest < 255 :: List.replicate 63 255).le

/-! ## The view of the embedded store -/

def FjallState.mail (st : FjallState) : MailView where
  record := fun m => st.messages.get? (ofString m)
  indexed := fun t m => ∃ key ∈ st.expiry.keys, ofBeBytes (key.take 8) = t ∧ stringOf (key.drop 8) = m
  inboxAt := fun did sid => st.inbox.get? (streamKey did sid)
  outboxAt := fun did sid => st.outbox.get? (streamKey did sid)

/-- The numbers of a record are `u64`. -/
structure U64s (record : MessageRecord) : Prop where
  receiveId : Words record.receiveId
  sendId : ∀ sid, record.sendId = some sid → Words sid
  expiresAt : record.expiresAt < 2 ^ 64

/-- The index is exact, its keys are a time and an id, and the numbers are `u64`. -/
structure Swept (st : FjallState) : Prop where
  indexed : Indexed st.mail
  keys : ∀ key ∈ st.expiry.keys, ∃ t m, t < 2 ^ 64 ∧ m ≠ "" ∧ key = expiryKey t m
  words : ∀ m r, st.mail.record m = some r → U64s r

section

variable {digest : String → String} {st st' : FjallState}

variable {m : String}

theorem indexed_iff (hkeys : ∀ key ∈ st.expiry.keys, ∃ t m, t < 2 ^ 64 ∧ m ≠ "" ∧ key = expiryKey t m) {t : ℕ} :
    st.mail.indexed t m ↔ t < 2 ^ 64 ∧ m ≠ "" ∧ expiryKey t m ∈ st.expiry.keys := by
  constructor
  · rintro ⟨key, hkey, rfl, rfl⟩
    obtain ⟨t, m, ht, hm, rfl⟩ := hkeys key hkey
    rw [take_expiryKey ht, drop_expiryKey]
    exact ⟨ht, hm, hkey⟩
  · rintro ⟨ht, -, hkey⟩
    exact ⟨_, hkey, take_expiryKey ht m, drop_expiryKey t m⟩

theorem keys_erase {p : Partition Unit} {k key : List ℕ} : key ∈ (p.erase k).keys ↔ key ∈ p.keys ∧ key ≠ k := by
  simp only [OrdMap.mem_keys, mem_erase]
  constructor
  · rintro ⟨v, hv, hne⟩
    exact ⟨⟨v, hv⟩, hne⟩
  · rintro ⟨⟨v, hv⟩, hne⟩
    exact ⟨v, hv, hne⟩

variable {r : MessageRecord}

theorem keys_removeMessage {key : List ℕ} : key ∈ (st.removeMessage m r).expiry.keys ↔ key ∈ st.expiry.keys ∧
    ¬(r.expiresAt ≠ 0 ∧ key = expiryKey r.expiresAt m) := by
  have hexpiry : (st.removeMessage m r).expiry =
      if r.expiresAt > 0 then st.expiry.erase (expiryKey r.expiresAt m) else st.expiry := rfl
  rw [hexpiry]
  by_cases hpos : r.expiresAt > 0
  · rw [if_pos hpos, keys_erase]
    have hne : r.expiresAt ≠ 0 := by omega
    simp [hne]
  · rw [if_neg hpos]
    have hzero : r.expiresAt = 0 := by omega
    simp [hzero]

theorem removes_removeMessage (h : Swept st) (hm : st.mail.record m = some r) :
    Removes m r st.mail (st.removeMessage m r).mail := by
  have hkeys' : ∀ key ∈ (st.removeMessage m r).expiry.keys, ∃ t m, t < 2 ^ 64 ∧ m ≠ "" ∧ key = expiryKey t m :=
    fun key hkey => h.keys key (keys_removeMessage.1 hkey).1
  refine ⟨?_, fun t x => ?_, fun x r' hx hr' => ?_, fun x r' sender sid hx hr' hfrom hsid => ?_⟩
  · funext x
    show (st.messages.erase (ofString m)).get? (ofString x) = _
    rw [get?_erase]
    by_cases hx : x = m
    · rw [hx, if_pos rfl, update_self]
    · rw [if_neg fun heq => hx (ofString_injective heq), update_of_ne hx]
      rfl
  · rw [indexed_iff hkeys', indexed_iff h.keys, keys_removeMessage]
    constructor
    · rintro ⟨ht, hne, hkey, hnot⟩
      refine ⟨⟨ht, hne, hkey⟩, ?_⟩
      rintro ⟨hzero, rfl, rfl⟩
      exact hnot ⟨hzero, rfl⟩
    · rintro ⟨⟨ht, hne, hkey⟩, hnot⟩
      refine ⟨ht, hne, hkey, ?_⟩
      rintro ⟨hzero, heq⟩
      obtain ⟨rfl, rfl⟩ := expiryKey_inj ht (h.words m r hm).expiresAt heq
      exact hnot ⟨hzero, rfl, rfl⟩
  · show (st.inbox.erase (streamKey r.toDidHash r.receiveId)).get? (streamKey r'.toDidHash r'.receiveId) = _
    rw [get?_erase, if_neg]
    · rfl
    · intro heq
      exact h.indexed.received x m r' r hr' hm hx
        (streamKey_inj (h.words x r' hr').receiveId (h.words m r hm).receiveId heq).2
  · show (st.removeMessage m r).outbox.get? (streamKey sender sid) = st.outbox.get? (streamKey sender sid)
    cases hfrom' : r.fromDidHash with
    | none =>
      have houtbox : (st.removeMessage m r).outbox = st.outbox := by
        simp only [FjallState.removeMessage, hfrom']
        rfl
      rw [houtbox]
    | some s =>
      cases hsend' : r.sendId with
      | none =>
        have houtbox : (st.removeMessage m r).outbox = st.outbox := by
          simp only [FjallState.removeMessage, hfrom', hsend']
          rfl
        rw [houtbox]
      | some d =>
        have houtbox : (st.removeMessage m r).outbox = st.outbox.erase (streamKey s d) := by
          simp only [FjallState.removeMessage, hfrom', hsend']
          rfl
        rw [houtbox]
        rw [get?_erase, if_neg]
        intro heq
        obtain ⟨-, rfl⟩ := streamKey_inj ((h.words x r' hr').sendId sid hsid) ((h.words m r hm).sendId d hsend') heq
        exact h.indexed.sent x m r' r sid hr' hm hx hsid hsend'

theorem swept_remove (h : Swept st) (hm : st.mail.record m = some r) :
    Purges (· = m) st.mail (st.removeMessage m r).mail ∧ Swept (st.removeMessage m r) := by
  have hpurges := (removes_removeMessage h hm).purges h.indexed hm
  refine ⟨hpurges, hpurges.indexed, fun key hkey => h.keys key (keys_removeMessage.1 hkey).1, fun x rx hx => ?_⟩
  by_cases hxm : x = m
  · rw [hpurges.gone_ x hxm] at hx
    cases hx
  · rw [hpurges.kept x hxm] at hx
    exact h.words x rx hx

theorem swept_delete (h : Swept st) (messageHash : String) (authority : DeletionAuthority) :
    Swept (deleteMessage messageHash authority st).2 := by
  unfold deleteMessage
  cases hm : st.messages.get? (ofString messageHash) with
  | none => exact h
  | some r =>
    dsimp only
    split
    · exact h
    · exact (swept_remove h hm).2

theorem purges_delete (h : Swept st) (messageHash adminDidHash : String) :
    Purges (· = messageHash) st.mail (deleteMessage messageHash (.admin adminDidHash) st).2.mail := by
  unfold deleteMessage
  cases hm : st.messages.get? (ofString messageHash) with
  | none => exact Purges.absent h.indexed hm
  | some r => exact (swept_remove h hm).1

theorem sweepLoop_cons (adminDidHash msgId : String) (rest : List String) (st : FjallState) :
    (sweepLoop adminDidHash (msgId :: rest) st).2 =
      (sweepLoop adminDidHash rest (deleteMessage msgId (.admin adminDidHash) st).2).2 := by
  rw [sweepLoop]
  split <;> rename_i hdelete <;> rw [hdelete]

theorem purges_sweepLoop (h : Swept st) (adminDidHash : String) (ids : List String) :
    Purges (· ∈ ids) st.mail (sweepLoop adminDidHash ids st).2.mail ∧ Swept (sweepLoop adminDidHash ids st).2 := by
  induction ids generalizing st with
  | nil => exact ⟨(Purges.refl h.indexed).congr fun m => by simp, h⟩
  | cons id ids ih =>
    rw [sweepLoop_cons]
    obtain ⟨hpurges, hswept⟩ := ih (swept_delete h id (.admin adminDidHash))
    exact ⟨((purges_delete h id adminDidHash).trans hpurges).congr fun m => by rw [mem_cons], hswept⟩

theorem mem_dueIds (h : Swept st) {nowSecs : ℕ} (hnow : nowSecs < 2 ^ 64) :
    m ∈ ((dueKeys nowSecs st).map fun key => stringOf (key.drop 8)).filter (fun msgId => !msgId.isEmpty) ↔ ∃ t, t ≤
    nowSecs ∧ st.mail.indexed t m := by
  have hscan : ∀ key, key ∈ dueKeys nowSecs st ↔ key ∈ st.expiry.keys ∧ ofBeBytes (key.take 8) ≤ nowSecs := by
    intro key
    have hmem : key ∈ dueKeys nowSecs st ↔ key ∈ st.expiry.keys ∧
        (List.replicate 72 0 ≤ key ∧ key ≤ beBytes 8 nowSecs ++ List.replicate 64 255) ∧ ¬ key.length < 8 := by
      simp only [dueKeys, Partition.range, mem_filter, mem_map, OrdMap.mem_keys]
      constructor
      · rintro ⟨⟨e, ⟨he, hrange⟩, rfl⟩, hlong⟩
        exact ⟨⟨e.2, he⟩, of_decide_eq_true hrange, by simpa using hlong⟩
      · rintro ⟨⟨v, hv⟩, hrange, hlong⟩
        exact ⟨⟨(key, v), ⟨hv, decide_eq_true hrange⟩, rfl⟩, by simpa using hlong⟩
    rw [hmem]
    refine and_congr_right fun hkey => ?_
    obtain ⟨t, m, ht, hm, rfl⟩ := h.keys key hkey
    have hzero : t ≠ 0 := ((h.indexed.exact_ t m).1 ((indexed_iff h.keys).2 ⟨ht, hm, hkey⟩)).1
    have hlong : ¬ (expiryKey t m).length < 8 := by simp [expiryKey, length_beBytes]
    rw [due_iff hzero ht hnow, take_expiryKey ht]
    exact and_iff_left hlong
  rw [mem_filter, mem_map]
  constructor
  · rintro ⟨⟨key, hkey, rfl⟩, -⟩
    obtain ⟨hkey, hle⟩ := (hscan key).1 hkey
    exact ⟨_, hle, key, hkey, rfl, rfl⟩
  · rintro ⟨t, ht, key, hkey, rfl, rfl⟩
    refine ⟨⟨key, (hscan key).2 ⟨hkey, ht⟩, rfl⟩, ?_⟩
    obtain ⟨t, m, ht', hm, rfl⟩ := h.keys key hkey
    rw [drop_expiryKey]
    simpa using hm

theorem purges_sweep (h : Swept st) {nowSecs : ℕ} (hnow : nowSecs < 2 ^ 64) (adminDidHash : String) :
    Purges (fun m => ∃ t, t ≤ nowSecs ∧ st.mail.indexed t m) st.mail
      (sweepExpiredMessages nowSecs adminDidHash st).2.mail ∧
      Swept (sweepExpiredMessages nowSecs adminDidHash st).2 := by
  obtain ⟨hpurges, hswept⟩ := purges_sweepLoop h adminDidHash
    (((dueKeys nowSecs st).map fun key => stringOf (key.drop 8)).filter fun msgId => !msgId.isEmpty)
  exact ⟨hpurges.congr fun m => mem_dueIds h hnow, hswept⟩

/-! ## Sequences of deletions -/

/-- Deletions one after the other, in anyone's name. -/
def Deletes : FjallState → FjallState → Prop :=
  Relation.ReflTransGen fun st st' => ∃ messageHash authority, st' = (deleteMessage messageHash authority st).2

theorem deletes_purgeLoop (didHash : String) (ids : List String) (st : FjallState) :
    Deletes st (purgeLoop didHash ids st).2 := by
  induction ids generalizing st with
  | nil => exact .refl
  | cons id ids ih =>
    have hnext : (purgeLoop didHash (id :: ids) st).2 =
      (purgeLoop didHash ids (deleteMessage id (.owner didHash) st).2).2 := by
      rw [purgeLoop]
      split <;> rename_i hdelete <;> rw [hdelete]
    rw [hnext]
    exact .head ⟨id, .owner didHash, rfl⟩ (ih _)

theorem deletes_fetchLoop (didHash : String) (optimistic : Bool) (entries : List (StreamId × StreamEntry))
    (st : FjallState) :
    Deletes st (fetchLoop didHash optimistic entries st).2 := by
  induction entries generalizing st with
  | nil => exact .refl
  | cons e entries ih =>
    obtain ⟨sid, entry⟩ := e
    cases optimistic with
    | false => exact ih st
    | true =>
      have hnext : (fetchLoop didHash true ((sid, entry) :: entries) st).2 =
          (fetchLoop didHash true entries (deleteMessage entry.msgId (.owner didHash) st).2).2 := by
        rw [fetchLoop, if_pos rfl]
        dsimp only
        split <;> rename_i hdelete <;> rw [hdelete]
      rw [hnext]
      exact .head ⟨entry.msgId, .owner didHash, rfl⟩ (ih _)

theorem Deletes.swept (hdeletes : Deletes st st') (h : Swept st) : Swept st' := by
  induction hdeletes with
  | refl => exact h
  | tail _ hdelete ih =>
    obtain ⟨messageHash, authority, rfl⟩ := hdelete
    exact swept_delete ih messageHash authority

/-! ## Runs of the embedded store -/

/-- One call of the embedded store. Storing gives out stream ids and takes an expiry, all of them `u64`; an account's
removal is a sequence of these calls, each under the lock by itself. -/
inductive FjallCall (digest : String → String) : FjallState → FjallState → Prop
  | store (st : FjallState) (nowMs : ℕ) (message toDidHash : String) (fromHash : Option String) (expiresAt : ℕ)
      (hwords : U64s (storedRecord nowMs message toDidHash fromHash expiresAt st)) :
      FjallCall digest st (storeMessage digest nowMs message toDidHash fromHash expiresAt st).2
  | delete (st : FjallState) (messageHash : String) (authority : DeletionAuthority) :
      FjallCall digest st (deleteMessage messageHash authority st).2
  | fetch (st : FjallState) (didHash : String) (options : FetchOptions) :
      FjallCall digest st (fetchMessages didHash options st).2
  | purge (st : FjallState) (didHash : String) (folder : Folder) :
      FjallCall digest st (purgeFolder didHash folder st).2
  | deleteFolderStream (st : FjallState) (didHash : String) (folder : Folder) :
      FjallCall digest st (deleteFolderStream didHash folder st).2
  | sweep (st : FjallState) (nowSecs : ℕ) (adminDidHash : String) (hnow : nowSecs < 2 ^ 64) :
      FjallCall digest st (sweepExpiredMessages nowSecs adminDidHash st).2
  | allocate (st : FjallState) (nowMs : ℕ) : FjallCall digest st (st.allocStreamId nowMs).2
  | other (st : FjallState) (accounts : Partition StoredAccount) (globals : String → ℤ) :
      FjallCall digest st { st with accounts, globals }

/-- `FjallStore::open` on the same directory: the last stream id is forgotten. -/
def FjallState.reopen (st : FjallState) : FjallState := { st with lastStreamMs := 0, nextStreamSeq := 0 }

/-- A call or a reopening of the store. -/
inductive FjallStep (digest : String → String) (st st' : FjallState) : Prop
  | call (h : FjallCall digest st st')
  | reopen (h : st' = st.reopen)

/-- The step stores a body again, while its message is stored with another expiry. -/
def ChangesExpiry (digest : String → String) (st st' : FjallState) : Prop :=
  ∃ nowMs message toDidHash fromHash expiresAt,
    st' = (storeMessage digest nowMs message toDidHash fromHash expiresAt st).2 ∧
    ∃ r, st.mail.record (digest message) = some r ∧ r.expiresAt ≠ 0 ∧ r.expiresAt ≠ expiresAt

/-- The step stores a message under a stream id that a stored message has. -/
def ReusesId (digest : String → String) (st st' : FjallState) : Prop :=
  ∃ nowMs message toDidHash fromHash expiresAt,
    st' = (storeMessage digest nowMs message toDidHash fromHash expiresAt st).2 ∧
    ∃ m r, st.mail.record m = some r ∧
      (r.receiveId = (storedRecord nowMs message toDidHash fromHash expiresAt st).receiveId ∨
        ∃ sid, r.sendId = some sid ∧ (storedRecord nowMs message toDidHash fromHash expiresAt st).sendId = some sid)

/-- The states that are reached without such steps. -/
inductive KeepsExpiries (digest : String → String) : FjallState → Prop
  | start : KeepsExpiries digest default
  | step {st st' : FjallState} (h : KeepsExpiries digest st) (hstep : FjallStep digest st st')
      (hclear : ¬ ChangesExpiry digest st st') (hids : ¬ ReusesId digest st st') : KeepsExpiries digest st'

theorem allocStreamId_gt (st : FjallState) (nowMs : ℕ) :
    st.lastId < (st.allocStreamId nowMs).1 ∧ (st.allocStreamId nowMs).2.lastId = (st.allocStreamId nowMs).1 := by
  unfold FjallState.allocStreamId
  by_cases h : nowMs > st.lastStreamMs
  · rw [if_pos h]
    exact ⟨Prod.Lex.lt_iff.2 (.inl h), rfl⟩
  · rw [if_neg h]
    exact ⟨Prod.Lex.lt_iff.2 (.inr ⟨rfl, Nat.lt_succ_self _⟩), rfl⟩

theorem Swept.congr (h : Swept st) (hmessages : st'.messages = st.messages) (hexpiry : st'.expiry = st.expiry) :
    Swept st' := by
  refine ⟨h.indexed.congr (by simp only [FjallState.mail, hmessages]) fun t m => ?_, ?_, ?_⟩
  · simp only [FjallState.mail, hexpiry]
  · rw [hexpiry]
    exact h.keys
  · intro m r hm
    refine h.words m r ?_
    show st.messages.get? (ofString m) = some r
    rw [← hmessages]
    exact hm

theorem record_storeMessage (nowMs : ℕ) (message toDidHash : String) (fromHash : Option String) (expiresAt : ℕ) :
    (storeMessage digest nowMs message toDidHash fromHash expiresAt st).2.mail.record =
      update st.mail.record (digest message) (some (storedRecord nowMs message toDidHash fromHash expiresAt st)) := by
  funext m
  show (storeMessage digest nowMs message toDidHash fromHash expiresAt st).2.messages.get? (ofString m) = _
  rw [(storeMessage_stores digest nowMs message toDidHash fromHash expiresAt st).messages, get?_insert]
  by_cases hm : m = digest message
  · rw [hm, if_pos rfl, update_self]
  · rw [if_neg fun heq => hm (ofString_injective heq), update_of_ne hm]
    rfl

theorem swept_store (hdigest : ∀ body, digest body ≠ "") (h : Swept st) {nowMs : ℕ} {message toDidHash : String}
    {fromHash : Option String} {expiresAt : ℕ}
    (hwords : U64s (storedRecord nowMs message toDidHash fromHash expiresAt st))
    (hclear : ∀ r, st.mail.record (digest message) = some r → r.expiresAt ≠ 0 → r.expiresAt = expiresAt)
    (hids : ∀ m r, st.mail.record m = some r → r.receiveId ≠
    (storedRecord nowMs message toDidHash fromHash expiresAt st).receiveId ∧ ∀ sid, r.sendId = some sid →
    (storedRecord nowMs message toDidHash fromHash expiresAt st).sendId ≠ some sid) : Swept
    (storeMessage digest nowMs message toDidHash fromHash expiresAt st).2 := by
  have hstores := storeMessage_stores digest nowMs message toDidHash fromHash expiresAt st
  have hmem : ∀ key, key ∈ (storeMessage digest nowMs message toDidHash fromHash expiresAt st).2.expiry.keys ↔
      key ∈ st.expiry.keys ∨ (expiresAt ≠ 0 ∧ key = expiryKey expiresAt (digest message)) := by
    intro key
    have hexpiry : (storeMessage digest nowMs message toDidHash fromHash expiresAt st).2.expiry =
        if expiresAt > 0 then st.expiry.insert (expiryKey expiresAt (digest message)) () else st.expiry :=
          hstores.expiry
    rw [hexpiry]
    by_cases hpos : expiresAt > 0
    · have hne : expiresAt ≠ 0 := by omega
      rw [if_pos hpos, mem_keys_insert]
      simp [hne, or_comm]
    · have hzero : expiresAt = 0 := by omega
      simp [hzero]
  have hexp : expiresAt < 2 ^ 64 := hwords.expiresAt
  have hkeys : ∀ key ∈ (storeMessage digest nowMs message toDidHash fromHash expiresAt st).2.expiry.keys,
      ∃ t m, t < 2 ^ 64 ∧ m ≠ "" ∧ key = expiryKey t m := by
    intro key hkey
    rcases (hmem key).1 hkey with hold | ⟨-, rfl⟩
    · exact h.keys key hold
    · exact ⟨expiresAt, digest message, hexp, hdigest message, rfl⟩
  have hrecord := @record_storeMessage digest st nowMs message toDidHash fromHash expiresAt
  refine ⟨h.indexed.write hrecord (fun t x => ?_) hclear (fun x r' hx => (hids x r' hx).1)
    fun x r' sid hx => (hids x r' hx).2 sid, hkeys, fun m r hm => ?_⟩
  · rw [indexed_iff hkeys, indexed_iff h.keys, hmem]
    constructor
    · rintro ⟨ht, hne, hkey | ⟨hzero, heq⟩⟩
      · exact .inl ⟨ht, hne, hkey⟩
      · exact .inr ⟨hzero, expiryKey_inj ht hexp heq⟩
    · rintro (⟨ht, hne, hkey⟩ | ⟨hzero, rfl, rfl⟩)
      · exact ⟨ht, hne, .inl hkey⟩
      · exact ⟨hexp, hdigest message, .inr ⟨hzero, rfl⟩⟩
  · rw [hrecord] at hm
    by_cases hmm : m = digest message
    · rw [hmm, update_self] at hm
      exact Option.some.inj hm ▸ hwords
    · rw [update_of_ne hmm] at hm
      exact h.words m r hm

theorem swept_purge (h : Swept st) (didHash : String) (folder : Folder) :
    Swept (purgeFolder didHash folder st).2 := by
  have hpurged := (deletes_purgeLoop didHash ((st.ownEntries folder didHash).map fun e => e.2.msgId) st).swept h
  cases folder <;> exact hpurged.congr rfl rfl

theorem KeepsExpiries.swept (hdigest : ∀ body, digest body ≠ "") (h : KeepsExpiries digest st) : Swept st := by
  induction h with
  | start =>
    refine ⟨⟨fun t m => ?_, ?_, ?_⟩, ?_, ?_⟩
    · refine iff_of_false ?_ ?_
      · rintro ⟨key, hkey, -⟩
        cases hkey
      · rintro ⟨-, r, hr, -⟩
        cases hr
    · rintro m m' r r' hr
      cases hr
    · rintro m m' r r' sid hr
      cases hr
    · intro key hkey
      cases hkey
    · rintro m r hr
      cases hr
  | step _ hstep hclear hids ih =>
    rcases hstep with hcall | rfl
    · cases hcall with
      | store nowMs message toDidHash fromHash expiresAt hwords =>
        refine swept_store hdigest ih hwords
          (fun r hr hzero => ?_) fun m r hm => ⟨fun heq => ?_, fun sid hsid hsend => ?_⟩
        · by_contra hne
          exact hclear ⟨nowMs, message, toDidHash, fromHash, expiresAt, rfl, r, hr, hzero, hne⟩
        · exact hids ⟨nowMs, message, toDidHash, fromHash, expiresAt, rfl, m, r, hm, .inl heq⟩
        · exact hids ⟨nowMs, message, toDidHash, fromHash, expiresAt, rfl, m, r, hm, .inr ⟨sid, hsid, hsend⟩⟩
      | delete messageHash authority => exact swept_delete ih messageHash authority
      | fetch didHash options => exact (deletes_fetchLoop _ _ _ _).swept ih
      | purge didHash folder => exact swept_purge ih didHash folder
      | deleteFolderStream didHash folder => cases folder <;> exact ih.congr rfl rfl
      | sweep nowSecs adminDidHash hnow => exact (purges_sweep ih hnow adminDidHash).2
      | allocate nowMs =>
        obtain ⟨hmessages, -, -, hexpiry, -⟩ := allocStreamId_partitions nowMs _
        exact ih.congr hmessages hexpiry
      | other accounts globals => exact ih.congr rfl rfl
    · exact ih.congr rfl rfl

/-- A body that is not stored changes no expiry. -/
theorem not_changesExpiry {nowMs expiresAt : ℕ} {message toDidHash : String} {fromHash : Option String}
    (hfresh : st.mail.record (digest message) = none) :
    ¬ ChangesExpiry digest st (storeMessage digest nowMs message toDidHash fromHash expiresAt st).2 := by
  rintro ⟨nowMs', message', toDidHash', fromHash', expiresAt', hst', r, hr, -, hne⟩
  have hother : digest message' ≠ digest message := fun heq => by
    rw [heq, hfresh] at hr
    cases hr
  have hrecord := congrFun (congrArg (fun st => st.mail.record) hst') (digest message')
  simp only [record_storeMessage, update_of_ne hother, update_self, hr] at hrecord
  cases hrecord
  exact hne rfl

theorem not_reusesId {st' : FjallState} (hgiven : ∀ m r, st.mail.record m = some r →
      r.receiveId ≤ st.lastId ∧ ∀ sid, r.sendId = some sid → sid ≤ st.lastId) : ¬ ReusesId digest st st' := by
  rintro ⟨nowMs, message, toDidHash, fromHash, expiresAt, -, m, r, hr, hsame⟩
  obtain ⟨hreceived, hsent⟩ := hgiven m r hr
  obtain ⟨hfirst, hlast⟩ := allocStreamId_gt st nowMs
  rcases hsame with hreceive | ⟨sid, hsid, hsend⟩
  · exact (hreceived.trans_lt hfirst).ne hreceive
  · obtain ⟨-, -, rfl⟩ := Option.map_eq_some_iff.1 hsend
    have hsecond := (allocStreamId_gt (st.allocStreamId nowMs).2 nowMs).1
    rw [hlast] at hsecond
    exact ((hsent _ hsid).trans_lt (hfirst.trans hsecond)).false

end

end AffinidiTdk.Store.Fjall

namespace AffinidiTdk.Store

open Function

/-- In every state of either store that is reached without storing a body again under another expiry (and, in the
embedded store, without giving out a stream id again after it was reopened) a sweep removes exactly what has expired. -/
theorem sweepExpiredMessages_exact {digest : String → String} (hdigest : ∀ body, digest body ≠ "") :
    (∀ st : MemoryState, KeepsExpiries digest st → ∀ nowSecs adminDidHash,
      SweptExactly nowSecs st.mail (sweepExpiredMessages nowSecs adminDidHash st).2.mail) ∧
    ∀ st : Fjall.FjallState, Fjall.KeepsExpiries digest st → ∀ nowSecs adminDidHash, nowSecs < 2 ^ 64 →
      SweptExactly nowSecs st.mail (Fjall.sweepExpiredMessages nowSecs adminDidHash st).2.mail := by
  constructor
  · intro st h nowSecs adminDidHash
    exact sweep_exact h nowSecs adminDidHash
  · intro st h nowSecs adminDidHash hnow
    have hswept := h.swept hdigest
    exact (Fjall.purges_sweep hswept hnow adminDidHash).1.sweptExactly hswept.indexed fun _ => Iff.rfl

/-! ## Two messages -/

/-- A digest that is SHA-256 on one body. -/
def helloDigest (body : String) : String :=
  if body = "hello" then "2cf24dba5fb0a30e26e83b2ac5b9e29e1b161e5c1fa7425e73043362938b9824" else "0" ++ body

theorem helloDigest_ne (body : String) : helloDigest body ≠ "" := by
  unfold helloDigest
  split
  · decide
  · intro h
    have hlength := congrArg String.length h
    simp at hlength

/-- The in-memory store with one message, stored with an expiry. -/
def helloMemory (expiresAt : ℕ) (st : MemoryState) : MemoryState :=
  (storeMessage helloDigest 1 "hello" "bob" (some "alice") expiresAt st).2

def helloFjall (expiresAt : ℕ) (st : Fjall.FjallState) : Fjall.FjallState :=
  (Fjall.storeMessage helloDigest 1 "hello" "bob" (some "alice") expiresAt st).2

/-- A message that expires later. -/
def laterMemory : MemoryState := (storeMessage helloDigest 1 "later" "bob" (some "alice") 1000 default).2

def laterFjall : Fjall.FjallState := (Fjall.storeMessage helloDigest 1 "later" "bob" (some "alice") 1000 default).2

theorem words_of_le {ms seq : ℕ} (hms : ms < 1000) (hseq : seq < 1000) : Fjall.Words (toLex (ms, seq)) :=
  ⟨show ms < 2 ^ 64 by omega, show seq < 2 ^ 64 by omega⟩

theorem storeFjall_call (message : String) (expiresAt : ℕ) (hexpires : expiresAt < 2 ^ 64) {st : Fjall.FjallState}
    (hfirst : (st.allocStreamId 1).1 = toLex (1, st.nextStreamSeq) ∨ (st.allocStreamId 1).1 =
      toLex (1, st.nextStreamSeq + 1))
    (hsecond : ((st.allocStreamId 1).2.allocStreamId 1).1 = toLex (1, (st.allocStreamId 1).2.nextStreamSeq + 1))
    (hseq : st.nextStreamSeq < 10) (hseq' : (st.allocStreamId 1).2.nextStreamSeq < 20) :
    Fjall.FjallCall helloDigest st (Fjall.storeMessage helloDigest 1 message "bob" (some "alice") expiresAt st).2 := by
  refine .store st 1 message "bob" (some "alice") expiresAt ⟨?_, fun sid hsid => ?_, hexpires⟩
  · show Fjall.Words (st.allocStreamId 1).1
    rcases hfirst with h | h
    · rw [h]
      exact words_of_le (by omega) (by omega)
    · rw [h]
      exact words_of_le (by omega) (by omega)
  · have hsid' : ((st.allocStreamId 1).2.allocStreamId 1).1 = sid := by
      simpa [Fjall.storedRecord, senderOf, Option.filter] using hsid
    rw [← hsid', hsecond]
    exact words_of_le (by omega) (by omega)

/-- Of two messages one is swept when its time has come. -/
theorem hello_swept :
    (SweptExactly 60 (helloMemory 60 laterMemory).mail
        (sweepExpiredMessages 60 "admin" (helloMemory 60 laterMemory)).2.mail ∧
      (sweepExpiredMessages 60 "admin" (helloMemory 60 laterMemory)).2.messages (helloDigest "hello") = none ∧
      ((sweepExpiredMessages 60 "admin" (helloMemory 60 laterMemory)).2.messages (helloDigest "later")).isSome) ∧
    SweptExactly 60 (helloFjall 60 laterFjall).mail
      (Fjall.sweepExpiredMessages 60 "admin" (helloFjall 60 laterFjall)).2.mail := by
  have hboth := sweepExpiredMessages_exact helloDigest_ne
  refine ⟨⟨hboth.1 _ ?_ 60 "admin", by decide +kernel⟩, hboth.2 _ ?_ 60 "admin" (by decide)⟩
  · have hlater : KeepsExpiries helloDigest laterMemory :=
      .step .start (.message default (.store 1 "later" "bob" (some "alice") 1000)) (not_changesExpiry rfl)
    exact .step hlater (.message laterMemory (.store 1 "hello" "bob" (some "alice") 60))
      (not_changesExpiry (by decide +kernel))
  · have hlater : Fjall.KeepsExpiries helloDigest laterFjall :=
      .step .start (.call (storeFjall_call "later" 1000 (by decide) (.inl rfl) rfl (by decide) (by decide)))
        (Fjall.not_changesExpiry rfl) (Fjall.not_reusesId nofun)
    refine .step hlater (.call (storeFjall_call "hello" 60 (by decide) (.inr (by decide +kernel)) (by decide +kernel)
      (by decide +kernel) (by decide +kernel))) (Fjall.not_changesExpiry (by decide +kernel))
      (Fjall.not_reusesId fun m r hr => ?_)
    rw [laterFjall, Fjall.record_storeMessage] at hr
    by_cases hm : m = helloDigest "later"
    · rw [hm, update_self] at hr
      cases hr
      exact ⟨by decide +kernel, fun sid hsid => by cases hsid; decide +kernel⟩
    · rw [update_of_ne hm] at hr
      cases hr

theorem swept_late {before after : Fjall.FjallState} {nowSecs : ℕ} (h : SweptExactly nowSecs before.mail after.mail)
    {m : String} {r : MessageRecord} (hr : before.messages.get? (Bytes.ofString m) = some r)
    (hlate : nowSecs < r.expiresAt) : after.messages.get? (Bytes.ofString m) = some r :=
  h.kept m r hr fun hexpired => by
    have := hexpired.2
    omega

/-- A message is stored again with a later expiry, and swept at the earlier one. -/
theorem hello_swept_early :
    (∃ st, Reachable helloDigest st ∧ ¬ SweptExactly 100 st.mail (sweepExpiredMessages 100 "admin" st).2.mail) ∧
    ∃ st, Relation.ReflTransGen (Fjall.FjallStep helloDigest) default st ∧
      ¬ SweptExactly 100 st.mail (Fjall.sweepExpiredMessages 100 "admin" st).2.mail := by
  constructor
  · refine ⟨helloMemory 1000 (helloMemory 60 default), ?_, fun h => ?_⟩
    · exact .tail (.tail .refl (.message default (.store 1 "hello" "bob" (some "alice") 60)))
        (.message _ (.store 1 "hello" "bob" (some "alice") 1000))
    · have hrecord : ((helloMemory 1000 (helloMemory 60 default)).messages (helloDigest "hello")).map
          MessageRecord.expiresAt = some 1000 := by decide +kernel
      obtain ⟨r, hr, hexpires⟩ := Option.map_eq_some_iff.1 hrecord
      have hkept := h.kept (helloDigest "hello") r hr fun hexpired => by
        have := hexpired.2
        omega
      have hgone : (sweepExpiredMessages 100 "admin" (helloMemory 1000 (helloMemory 60 default))).2.messages
          (helloDigest "hello") = none := by decide +kernel
      exact absurd (hgone.symm.trans hkept) (by simp)
  · have hfirst : Fjall.FjallCall helloDigest default (helloFjall 60 default) :=
      storeFjall_call "hello" 60 (by decide) (.inl rfl) rfl (by decide) (by decide)
    have hsecond : Fjall.FjallCall helloDigest (helloFjall 60 default) (helloFjall 1000 (helloFjall 60 default)) :=
      storeFjall_call "hello" 1000 (by decide) (.inr (by decide +kernel)) (by decide +kernel) (by decide +kernel)
        (by decide +kernel)
    refine ⟨helloFjall 1000 (helloFjall 60 default), ?_, fun h => ?_⟩
    · exact .tail (.tail .refl (.call hfirst)) (.call hsecond)
    · have hrecord : ((helloFjall 1000 (helloFjall 60 default)).messages.get?
          (Bytes.ofString (helloDigest "hello"))).map MessageRecord.expiresAt = some 1000 := by decide +kernel
      obtain ⟨r, hr, hexpires⟩ := Option.map_eq_some_iff.1 hrecord
      have hkept := swept_late h hr (by omega)
      have hgone : (Fjall.sweepExpiredMessages 100 "admin" (helloFjall 1000 (helloFjall 60 default))).2.messages.get?
          (Bytes.ofString (helloDigest "hello")) = none := by decide +kernel
      exact absurd (hgone.symm.trans hkept) (by simp)

end AffinidiTdk.Store
