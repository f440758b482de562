/-
Paging through an inbox, in both in-process stores. The in-memory store scans past the cursor; the embedded one
scans from the cursor on, counts the cursor's own entry, and leaves it out of the page afterwards.
-/
import AffinidiTdk.Lib.Paging
import AffinidiTdk.Store.ConsistentRuns
import AffinidiTdk.Store.FjallFolders

namespace AffinidiTdk.Store

open List
open Bytes Paging

/-! ## What a page is -/

/-- A fetch that deletes nothing. -/
def readOptions (limit : ℕ) (startId : Option StreamId) : FetchOptions := ⟨limit, startId, .doNotDelete⟩

/-- The page a reader expects: the first entries past the cursor, as they are shown. -/
def expectedPage (inbox : List (StreamId × StreamEntry)) (element : StreamId → StreamEntry → MessageListElement)
    (limit : ℕ) (startId : Option StreamId) : GetMessagesResponse :=
  ⟨((past inbox startId).take limit).map fun e => element e.1 e.2, [], []⟩

/-- A page with the ids that the reader may feed back. -/
def received (response : Except MediatorError GetMessagesResponse) : List (StreamId × MessageListElement) :=
  match response with
  | .ok response => response.success.filterMap fun element => element.receiveId.map fun sid => (sid, element)
  | .error _ => []

/-- The whole inbox as it is shown. -/
def shown (inbox : List (StreamId × StreamEntry)) (element : StreamId → StreamEntry → MessageListElement) :
    List (StreamId × MessageListElement) := inbox.map fun e => (e.1, element e.1 e.2)

theorem received_success {element : StreamId → StreamEntry → MessageListElement}
    (helement : ∀ sid entry, (element sid entry).receiveId = some sid) (entries : List (StreamId × StreamEntry)) :
    received (.ok ⟨entries.map fun e => element e.1 e.2, [], []⟩) = shown entries element := by
  simp only [received, shown, filterMap_map]
  induction entries with
  | nil => rfl
  | cons e entries ih =>
    rw [filterMap_cons, map_cons, ih]
    simp [helement]

/-! ## The in-memory store -/

theorem fetchLoop_reads (didHash : String) (entries : List (StreamId × StreamEntry)) (st : MemoryState) :
    fetchLoop didHash false entries st = (⟨entries.map fun e => e.2.fetchElement didHash st e.1, [], []⟩, st) := by
  induction entries with
  | nil => rfl
  | cons e entries ih =>
    obtain ⟨sid, entry⟩ := e
    simp only [fetchLoop, Bool.false_eq_true, if_false, ih, map_cons]

theorem fetchEntries_eq (didHash : String) (limit : ℕ) (startId : Option StreamId) (st : MemoryState) :
    fetchEntries didHash (readOptions limit startId) st =
      (past (st.inboxOf didHash).entries startId).take limit := by
  unfold fetchEntries MemoryState.inboxOf readOptions
  cases st.inbox didHash with
  | none => cases startId <;> simp [past, OrdMap.empty]
  | some stream =>
    cases startId with
    | none => simp [past]
    | some start => rfl

theorem fetchMessages_reads (didHash : String) (limit : ℕ) (startId : Option StreamId) (st : MemoryState) :
    fetchMessages didHash (readOptions limit startId) st =
      (.ok (expectedPage (st.inboxOf didHash).entries
        (fun sid entry => entry.fetchElement didHash st sid) limit startId), st) := by
  have hentries := fetchEntries_eq didHash limit startId st
  have hpolicy : decide ((readOptions limit startId).deletePolicy = .optimistic) = false := rfl
  rw [fetchMessages, hpolicy, hentries, fetchLoop_reads]
  rfl

/-! ## The keys of the embedded store -/

variable {didHash : String} {st : FjallState}

namespace Fjall

/-- Both numbers of a stream id are `u64`. -/
def Words (sid : StreamId) : Prop := (ofLex sid).1 < 2 ^ 64 ∧ (ofLex sid).2 < 2 ^ 64

theorem length_encodeStreamId (sid : StreamId) : (encodeStreamId sid).length = 16 := by
  simp [encodeStreamId, length_beBytes]

theorem decode_encodeStreamId {sid : StreamId} (h : Words sid) : decodeStreamId (encodeStreamId sid) = some sid := by
  have hpow : (256 : ℕ) ^ 8 = 2 ^ 64 := by norm_num
  have htake : (encodeStreamId sid).take 8 = beBytes 8 (ofLex sid).1 := by
    rw [encodeStreamId, take_left' (length_beBytes 8 _)]
  have hdrop : (encodeStreamId sid).drop 8 = beBytes 8 (ofLex sid).2 := by
    rw [encodeStreamId, drop_left' (length_beBytes 8 _)]
  rw [decodeStreamId, if_neg (by simp [length_encodeStreamId]), htake, hdrop, ofBeBytes_beBytes (hpow ▸ h.1),
    ofBeBytes_beBytes (hpow ▸ h.2)]
  rfl

theorem encodeStreamId_lt {sid sid' : StreamId} (h' : Words sid') (hlt : sid < sid') :
    encodeStreamId sid < encodeStreamId sid' := by
  have hpow : (256 : ℕ) ^ 8 = 2 ^ 64 := by norm_num
  rcases Prod.Lex.lt_iff.1 hlt with hms | ⟨hms, hseq⟩
  · exact append_lt_append_of_lt (by simp [length_beBytes]) (beBytes_lt hms (hpow ▸ h'.1)) _ _
  · rw [encodeStreamId, encodeStreamId, hms, append_lt_append_iff]
    exact beBytes_lt hseq (hpow ▸ h'.2)

theorem encodeStreamId_lt_iff {sid sid' : StreamId} (h : Words sid) (h' : Words sid') :
    encodeStreamId sid < encodeStreamId sid' ↔ sid < sid' := by
  refine ⟨fun hlt => ?_, encodeStreamId_lt h'⟩
  rcases lt_trichotomy sid sid' with hsid | rfl | hsid
  · exact hsid
  · exact absurd hlt (lt_irrefl _)
  · exact absurd (hlt.trans (encodeStreamId_lt h hsid)) (lt_irrefl _)

/-- Every key of the partition is the hash of a DID, as long as this one's, and a stream id. -/
def Keyed (didHash : String) (inbox : Partition StreamEntry) : Prop :=
  ∀ e ∈ inbox.entries, ∃ did sid, e.1 = streamKey did sid ∧ Words sid ∧ (ofString did).length =
    (ofString didHash).length

theorem ownId_streamKey {didHash did : String} {sid : StreamId} (hwords : Words sid)
    (hlength : (ofString did).length = (ofString didHash).length) :
    ownId didHash (streamKey did sid) = if did = didHash then some sid else none := by
  have htake : (streamKey did sid).take (ofString didHash).length = ofString did := by
    rw [streamKey, ← hlength, take_left]
  have hdrop : (streamKey did sid).drop (ofString didHash).length = encodeStreamId sid := by
    rw [streamKey, ← hlength, drop_left]
  have hlong : ¬ (streamKey did sid).length < (ofString didHash).length + 16 := by
    simp [streamKey, hlength, length_encodeStreamId]
  by_cases hdid : did = didHash
  · subst hdid
    have hown : ownKey did (streamKey did sid) = true := by
      simp only [ownKey, htake, hlong]
      simp
    rw [ownId, if_pos hown, hdrop, take_of_length_le (length_encodeStreamId sid).le, decode_encodeStreamId hwords,
      if_pos rfl]
  · have hother : ownKey didHash (streamKey did sid) ≠ true := by
      have hne : ofString did ≠ ofString didHash := fun heq => hdid (ofString_injective heq)
      simp [ownKey, htake, hne]
    rw [ownId, if_neg hother, if_neg hdid]

theorem scanned_iff {didHash did : String} {sid : StreamId} (hwords : Words sid)
    (hlength : (ofString did).length = (ofString didHash).length) {start : Option StreamId}
    (hstart : ∀ s, start = some s → Words s) :
    (startKey didHash start ≤ streamKey did sid ∧ streamKey did sid ≤ streamKey didHash .max) ↔
      did = didHash ∧ ∀ s, start = some s → s ≤ sid := by
  have hmax : Words StreamId.max := ⟨by decide, by decide⟩
  have hprefix : ∃ low, startKey didHash start = ofString didHash ++ low := by
    cases start with
    | none => exact ⟨_, rfl⟩
    | some s => exact ⟨_, rfl⟩
  by_cases hdid : did = didHash
  · subst hdid
    have hupper : streamKey did sid ≤ streamKey did .max := by
      rw [← not_lt, streamKey, streamKey, append_lt_append_iff, encodeStreamId_lt_iff hmax hwords, not_lt]
      refine Prod.Lex.le_iff.2 ?_
      have hms := hwords.1
      have hseq := hwords.2
      show (ofLex sid).1 < 2 ^ 64 - 1 ∨ (ofLex sid).1 = 2 ^ 64 - 1 ∧ (ofLex sid).2 ≤ 2 ^ 64 - 1
      omega
    have hlower : startKey did start ≤ streamKey did sid ↔ ∀ s, start = some s → s ≤ sid := by
      cases start with
      | none =>
        have hzero : List.replicate 16 0 = encodeStreamId (toLex (0, 0)) := by decide
        rw [← not_lt, startKey, hzero, streamKey, append_lt_append_iff,
          encodeStreamId_lt_iff hwords ⟨by decide, by decide⟩, not_lt]
        refine iff_of_true (Prod.Lex.le_iff.2 ?_) (by simp)
        show 0 < (ofLex sid).1 ∨ 0 = (ofLex sid).1 ∧ 0 ≤ (ofLex sid).2
        omega
      | some s =>
        rw [← not_lt, startKey, streamKey, streamKey, append_lt_append_iff,
          encodeStreamId_lt_iff hwords (hstart s rfl), not_lt]
        simp
    simp [hupper, hlower]
  · refine iff_of_false ?_ fun h => hdid h.1
    rintro ⟨hlow, hhigh⟩
    obtain ⟨low, hlow'⟩ := hprefix
    rw [hlow', streamKey] at hlow
    rw [streamKey, streamKey] at hhigh
    rcases lt_trichotomy (ofString did) (ofString didHash) with hlt | heq | hgt
    · exact absurd (append_lt_append_of_lt hlength hlt (encodeStreamId sid) low) (not_lt.2 hlow)
    · exact hdid (ofString_injective heq)
    · exact absurd (append_lt_append_of_lt hlength.symm hgt (encodeStreamId .max) (encodeStreamId sid))
        (not_lt.2 hhigh)

/-! ## The embedded store -/

/-- The inbox of a DID: its own keys with their entries, in the order of the keys. -/
def inboxOf (st : FjallState) (didHash : String) : List (StreamId × StreamEntry) :=
  st.inbox.entries.filterMap fun e => (ownId didHash e.1).map fun sid => (sid, e.2)

theorem mem_inboxOf_words (hkeyed : Keyed didHash st.inbox)
    {e : StreamId × StreamEntry} (he : e ∈ inboxOf st didHash) : Words e.1 := by
  obtain ⟨entry, hentry, hown⟩ := mem_filterMap.1 he
  obtain ⟨did, sid, hkey, hwords, hlength⟩ := hkeyed entry hentry
  rw [hkey, ownId_streamKey hwords hlength] at hown
  by_cases hdid : did = didHash
  · rw [if_pos hdid] at hown
    cases hown
    exact hwords
  · rw [if_neg hdid] at hown
    cases hown

theorem inboxOf_sorted (hkeyed : Keyed didHash st.inbox) :
    (inboxOf st didHash).Pairwise fun a b => a.1 < b.1 := by
  rw [inboxOf, pairwise_filterMap]
  refine st.inbox.sorted.imp_of_mem ?_
  intro e e' he he' hlt x hx x' hx'
  obtain ⟨did, sid, hkey, hwords, hlength⟩ := hkeyed e he
  obtain ⟨did', sid', hkey', hwords', hlength'⟩ := hkeyed e' he'
  rw [hkey, ownId_streamKey hwords hlength] at hx
  rw [hkey', ownId_streamKey hwords' hlength'] at hx'
  by_cases hdid : did = didHash
  · by_cases hdid' : did' = didHash
    · rw [if_pos hdid] at hx
      rw [if_pos hdid'] at hx'
      cases hx
      cases hx'
      rw [hkey, hkey', hdid, hdid', streamKey, streamKey, append_lt_append_iff] at hlt
      exact (encodeStreamId_lt_iff hwords hwords').1 hlt
    · rw [if_neg hdid'] at hx'
      cases hx'
  · rw [if_neg hdid] at hx
    cases hx

theorem scan_eq (hkeyed : Keyed didHash st.inbox) {start : Option StreamId}
    (hstart : ∀ s, start = some s → Words s) (limit : ℕ) :
    ((st.inbox.range (startKey didHash start) (streamKey didHash .max)).take limit).filterMap
    (fun e => (ownId didHash e.1).map fun sid => (sid, e.2)) = (from_ (inboxOf st didHash) start).take limit := by
  have hfrom : from_ (inboxOf st didHash) start =
      (st.inbox.range (startKey didHash start) (streamKey didHash .max)).filterMap
        fun e => (ownId didHash e.1).map fun sid => (sid, e.2) := by
    have hfilter : from_ (inboxOf st didHash) start =
        (inboxOf st didHash).filter fun e => decide (∀ s, start = some s → s ≤ e.1) := by
      cases start with
      | none => simp [from_]
      | some s => simp [from_]
    rw [hfilter, inboxOf, Partition.range, filter_filterMap, filterMap_filter]
    refine filterMap_congr fun e he => ?_
    obtain ⟨did, sid, hkey, hwords, hlength⟩ := hkeyed e he
    have hiff := scanned_iff hwords hlength hstart
    rw [hkey, ownId_streamKey hwords hlength]
    by_cases hdid : did = didHash
    · subst hdid
      rw [if_pos rfl, Option.map_some, Option.filter_some]
      by_cases hpast : ∀ s, start = some s → s ≤ sid
      · rw [if_pos (decide_eq_true hpast), if_pos (decide_eq_true (hiff.2 ⟨rfl, hpast⟩))]
      · rw [if_neg (by simpa using hpast), if_neg fun h => hpast (hiff.1 (of_decide_eq_true h)).2]
    · simp [hdid]
  rw [hfrom]
  -- every scanned key is an entry of the inbox, so the scan counts entries
  have hsome : ∀ e ∈ st.inbox.range (startKey didHash start) (streamKey didHash .max),
      ∃ x, (ownId didHash e.1).map (fun sid => (sid, e.2)) = some x := by
    intro e he
    obtain ⟨hmem, hrange⟩ := mem_filter.1 he
    obtain ⟨did, sid, hkey, hwords, hlength⟩ := hkeyed e hmem
    have hdid := ((scanned_iff hwords hlength hstart).1 (hkey ▸ of_decide_eq_true hrange)).1
    rw [hkey, ownId_streamKey hwords hlength, if_pos hdid]
    exact ⟨_, rfl⟩
  generalize st.inbox.range (startKey didHash start) (streamKey didHash .max) = scanned at hsome
  induction scanned generalizing limit with
  | nil => simp
  | cons e scanned ih =>
    obtain ⟨x, hx⟩ := hsome e mem_cons_self
    cases limit with
    | zero => simp
    | succ limit =>
      rw [take_succ_cons, filterMap_cons, filterMap_cons]
      simp only [hx]
      rw [take_succ_cons, ih limit fun e he => hsome e (mem_cons_of_mem _ he)]

theorem fetchEntries_eq (hkeyed : Keyed didHash st.inbox)
    {startId : Option StreamId}
    (hstart : ∀ s, startId = some s → Words s) (limit : ℕ) :
    fetchEntries didHash (readOptions limit startId) st =
      (past (inboxOf st didHash) startId).take (limit - (named (inboxOf st didHash) startId).length) := by
  rw [← take_from (inboxOf_sorted hkeyed), ← scan_eq hkeyed hstart, filter_filterMap]
  refine filterMap_congr fun e _ => ?_
  cases hown : ownId didHash e.1 with
  | none => rfl
  | some sid =>
    by_cases hsid : startId = some sid
    · simp [readOptions, hsid, Option.filter]
    · simp [readOptions, hsid, Option.filter]

theorem fetchLoop_reads (didHash : String) (entries : List (StreamId × StreamEntry)) (st : FjallState) :
    fetchLoop didHash false entries st = (⟨entries.map fun e => fetchElement didHash st e.1 e.2, [], []⟩, st) := by
  induction entries with
  | nil => rfl
  | cons e entries ih =>
    obtain ⟨sid, entry⟩ := e
    simp only [fetchLoop, Bool.false_eq_true, if_false, ih, map_cons]

theorem fetchMessages_reads (hkeyed : Keyed didHash st.inbox)
    {startId : Option StreamId} (hstart : ∀ s, startId = some s → Words s) (limit : ℕ) :
    fetchMessages didHash (readOptions limit startId) st =
      (.ok (expectedPage (inboxOf st didHash) (fetchElement didHash st)
        (limit - (named (inboxOf st didHash) startId).length) startId), st) := by
  have hentries := fetchEntries_eq hkeyed hstart limit
  have hpolicy : decide ((readOptions limit startId).deletePolicy = .optimistic) = false := rfl
  rw [fetchMessages, hpolicy, hentries, fetchLoop_reads]
  rfl

end Fjall

/-! ## Reading a whole inbox -/

/-- The pages a reader of the in-memory store gets. -/
def memoryPage (didHash : String) (limit : ℕ) (st : MemoryState) (startId : Option StreamId) :
    List (StreamId × MessageListElement) := received (fetchMessages didHash (readOptions limit startId) st).1

/-- The pages a reader of the embedded store gets. -/
def fjallPage (didHash : String) (limit : ℕ) (st : Fjall.FjallState) (startId : Option StreamId) :
    List (StreamId × MessageListElement) := received (Fjall.fetchMessages didHash (readOptions limit startId) st).1

theorem memoryPage_visits (didHash : String) {limit : ℕ} (hlimit : 1 ≤ limit) (st : MemoryState) :
    Visits (memoryPage didHash limit st) none
      (shown (st.inboxOf didHash).entries fun sid entry => entry.fetchElement didHash st sid) := by
  refine visits_past (st.inboxOf didHash).sorted (fun _ => limit) (fun start _ => ?_)
    (fun _ _ => hlimit) (fun cursor h => by cases h)
  rw [memoryPage, fetchMessages_reads, expectedPage, received_success fun _ _ => rfl]
  rfl

theorem fjallPage_eq {st : Fjall.FjallState} (hkeyed : Fjall.Keyed didHash st.inbox) (limit : ℕ)
    {start : Option StreamId} (hstart : Cursor (Fjall.inboxOf st didHash) start) :
    fjallPage didHash limit st start =
    ((past (Fjall.inboxOf st didHash) start).take (limit - (named (Fjall.inboxOf st didHash) start).length)).map
    fun e => (e.1, Fjall.fetchElement didHash st e.1 e.2) := by
  have hwords : ∀ s, start = some s → Fjall.Words s := by
    intro s hs
    obtain ⟨e, he, rfl⟩ := hstart s hs
    exact Fjall.mem_inboxOf_words hkeyed he
  rw [fjallPage, Fjall.fetchMessages_reads hkeyed hwords, expectedPage, received_success fun _ _ => rfl]
  rfl

/-- In the embedded store a reader sees the whole inbox unless the pages hold one entry and the inbox more. -/
theorem fjallPage_visits_iff {st : Fjall.FjallState} (hkeyed : Fjall.Keyed didHash st.inbox)
    {limit : ℕ}
    (hlimit : 1 ≤ limit) :
    Visits (fjallPage didHash limit st) none (shown (Fjall.inboxOf st didHash) (Fjall.fetchElement didHash st)) ↔
      2 ≤ limit ∨ (Fjall.inboxOf st didHash).length ≤ 1 := by
  have hsorted := Fjall.inboxOf_sorted hkeyed
  have hnone : Cursor (Fjall.inboxOf st didHash) none := fun cursor h => by cases h
  have hfirst : fjallPage didHash limit st none =
      ((Fjall.inboxOf st didHash).take limit).map fun e => (e.1, Fjall.fetchElement didHash st e.1 e.2) := by
    rw [fjallPage_eq hkeyed limit hnone]
    simp [named, past]
  by_cases htwo : 2 ≤ limit
  · refine iff_of_true ?_ (.inl htwo)
    refine visits_past hsorted (fun start => limit - (named (Fjall.inboxOf st didHash) start).length)
      (fun start hstart => fjallPage_eq hkeyed limit hstart) (fun start _ => ?_) hnone
    have := length_named_le_one hsorted start
    omega
  · obtain rfl : limit = 1 := by omega
    constructor
    · intro hvisits
      right
      by_contra hmany
      obtain ⟨a, b, rest, hinbox⟩ : ∃ a b rest, Fjall.inboxOf st didHash = a :: b :: rest := by
        rcases hinbox : Fjall.inboxOf st didHash with _ | ⟨a, _ | ⟨b, rest⟩⟩
        · simp [hinbox] at hmany
        · simp [hinbox] at hmany
        · exact ⟨a, b, rest, rfl⟩
      -- the second page is the cursor's own entry, left out
      have hcursor : Cursor (Fjall.inboxOf st didHash) (some a.1) := by
        intro cursor heq
        exact ⟨a, by simp [hinbox], Option.some.inj heq⟩
      have hsecond : fjallPage didHash 1 st (some a.1) = [] := by
        rw [fjallPage_eq hkeyed 1 hcursor]
        have hown : a ∈ named (Fjall.inboxOf st didHash) (some a.1) := mem_filter.2 ⟨by simp [hinbox], by simp⟩
        have hnamed := length_pos_of_mem hown
        have hzero : 1 - (named (Fjall.inboxOf st didHash) (some a.1)).length = 0 := by omega
        rw [hzero]
        rfl
      have hpage : fjallPage didHash 1 st none = [(a.1, Fjall.fetchElement didHash st a.1 a.2)] := by
        rw [hfirst, hinbox]
        rfl
      have hlast : (fjallPage didHash 1 st none).getLast? = some (a.1, Fjall.fetchElement didHash st a.1 a.2) := by
        rw [hpage]
        rfl
      have hshort := hvisits.unique (.next hlast (.stop hsecond))
      rw [hpage, hinbox] at hshort
      have hlength := congrArg List.length hshort
      simp [shown] at hlength
    · rintro (h | hone)
      · exact absurd h htwo
      · rcases hinbox : Fjall.inboxOf st didHash with _ | ⟨a, _ | ⟨b, rest⟩⟩
        · refine .stop ?_
          rw [hfirst, hinbox]
          rfl
        · have hpage : fjallPage didHash 1 st none = [(a.1, Fjall.fetchElement didHash st a.1 a.2)] := by
            rw [hfirst, hinbox]
            rfl
          have hlast : (fjallPage didHash 1 st none).getLast? =
            some (a.1, Fjall.fetchElement didHash st a.1 a.2) := by
            rw [hpage]
            rfl
          have hcursor : Cursor (Fjall.inboxOf st didHash) (some a.1) := by
            intro cursor heq
            exact ⟨a, by simp [hinbox], Option.some.inj heq⟩
          have hsecond : fjallPage didHash 1 st (some a.1) = [] := by
            rw [fjallPage_eq hkeyed 1 hcursor, hinbox]
            simp [past]
          have hvisits := Visits.next hlast (.stop hsecond)
          rw [hpage] at hvisits
          exact hvisits
        · simp [hinbox] at hone

/-- The in-memory store pages as its reader expects. The embedded store gives the expected page exactly when the
cursor names no entry or the page is not full, and shows the whole inbox exactly when pages hold more than one entry
or the inbox does not. -/
theorem fetchMessages_complete_iff (didHash : String) (limit : ℕ) {startId : Option StreamId} (st : MemoryState)
    {fj : Fjall.FjallState} (hkeyed : Fjall.Keyed didHash fj.inbox)
      (hstart : ∀ s, startId = some s → Fjall.Words s) :
    fetchMessages didHash (readOptions limit startId) st =
      (.ok (expectedPage (st.inboxOf didHash).entries
        (fun sid entry => entry.fetchElement didHash st sid) limit startId), st) ∧
    (1 ≤ limit → Visits (memoryPage didHash limit st) none
      (shown (st.inboxOf didHash).entries fun sid entry => entry.fetchElement didHash st sid)) ∧
    (Fjall.fetchMessages didHash (readOptions limit startId) fj =
        (.ok (expectedPage (Fjall.inboxOf fj didHash) (Fjall.fetchElement didHash fj) limit startId), fj) ↔
      limit = 0 ∨ named (Fjall.inboxOf fj didHash) startId = [] ∨
        (past (Fjall.inboxOf fj didHash) startId).length < limit) ∧
    (1 ≤ limit →
      (Visits (fjallPage didHash limit fj) none (shown (Fjall.inboxOf fj didHash) (Fjall.fetchElement didHash fj)) ↔
        2 ≤ limit ∨ (Fjall.inboxOf fj didHash).length ≤ 1)) := by
  refine ⟨fetchMessages_reads didHash limit startId st, fun hlimit => memoryPage_visits didHash hlimit st, ?_,
    fun hlimit => fjallPage_visits_iff hkeyed hlimit⟩
  have hone := length_named_le_one (Fjall.inboxOf_sorted hkeyed) startId
  rw [Fjall.fetchMessages_reads hkeyed hstart]
  constructor
  · intro h
    have hpage := congrArg GetMessagesResponse.success (Except.ok.inj (Prod.ext_iff.1 h).1)
    have hlength := congrArg List.length hpage
    simp only [expectedPage, length_map, length_take] at hlength
    by_cases hnamed : named (Fjall.inboxOf fj didHash) startId = []
    · exact .inr (.inl hnamed)
    · have hpos := length_pos_iff.2 hnamed
      omega
  · intro h
    have htake : (past (Fjall.inboxOf fj didHash) startId).take
        (limit - (named (Fjall.inboxOf fj didHash) startId).length) =
          (past (Fjall.inboxOf fj didHash) startId).take limit := by
      rcases h with rfl | hnamed | hshort
      · rw [Nat.zero_sub]
      · rw [hnamed, length_nil, Nat.sub_zero]
      · rw [take_of_length_le (by omega), take_of_length_le hshort.le]
    rw [expectedPage, expectedPage, htake]

/-- An embedded store with two messages for one DID. -/
def twoLetters : Fjall.FjallState :=
  { (default : Fjall.FjallState) with
    inbox := (OrdMap.empty.insert (Fjall.streamKey "did" (toLex (1, 0))) ⟨"first", 1, "alice"⟩).insert
      (Fjall.streamKey "did" (toLex (2, 0))) ⟨"second", 1, "alice"⟩ }

theorem twoLetters_keyed : Fjall.Keyed "did" twoLetters.inbox := by
  intro e he
  rcases OrdMap.mem_insert.1 he with rfl | ⟨he, -⟩
  · exact ⟨"did", toLex (2, 0), rfl, ⟨by decide, by decide⟩, rfl⟩
  · rcases OrdMap.mem_insert.1 he with rfl | ⟨he, -⟩
    · exact ⟨"did", toLex (1, 0), rfl, ⟨by decide, by decide⟩, rfl⟩
    · cases he

/-- With pages of two entries both are seen. -/
theorem twoLetters_read : Visits (fjallPage "did" 2 twoLetters) none
    (shown (Fjall.inboxOf twoLetters "did") (Fjall.fetchElement "did" twoLetters)) :=
  ((@fetchMessages_complete_iff "did" 2 none default twoLetters twoLetters_keyed fun _ h => by cases h).2.2.2
    (by decide)).2 (.inl le_rfl)

/-- With pages of one entry the second is not: the page after the first is empty. -/
theorem second_letter_missed :
    (Fjall.fetchMessages "did" (readOptions 1 (some (toLex (1, 0)))) twoLetters).1 = .ok ⟨[], [], []⟩ ∧
    (expectedPage (Fjall.inboxOf twoLetters "did") (Fjall.fetchElement "did" twoLetters) 1
      (some (toLex (1, 0)))).success.map
      MessageListElement.msgId = ["second"] := by
  constructor
  · decide +kernel
  · decide +kernel

end AffinidiTdk.Store
