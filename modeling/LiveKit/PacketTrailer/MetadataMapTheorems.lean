import LiveKit.PacketTrailer.MetadataMaps

/-!
# When the maps are consistent

The keys of the receive map are in its order unless a frame has the RTP timestamp of the entry that
is evicted for it; and what is there of the SSRC 0 is not flushed, as 0 stands for no layer.
-/

namespace LiveKit.PacketTrailer.MetadataMaps

open AList List EvictingMap TransitionSystem

variable {κ : Type}

/-! ## What a frame does -/

/-- The receive side after a frame. -/
def handled (t : Transformer κ) (frame : Frame) : Transformer κ :=
  match metadataOf frame with
  | some metadata => t.storeReceived frame.timestamp { metadata with ssrc := frame.ssrc }
  | none => t

/-- Receiving never fails, and changes the map only through the trailer it finds. -/
theorem transformReceive_eq (t : Transformer κ) (frame : Frame) :
    ∃ out, t.transformReceive frame = some (handled t frame, out) := by
  obtain ⟨metadata, out, hextract, -⟩ := extractTrailer_safe frame.data
  have hmetadata : metadataOf frame = metadata := by
    unfold metadataOf
    rw [hextract]
    rfl
  unfold Transformer.transformReceive handled
  rw [hextract, hmetadata]
  cases metadata with
  | none | some => exact ⟨_, rfl⟩

theorem step_receive (s : State κ) (frame : Frame) :
    step s (.transformReceive frame) = some { s with recv := handled s.recv frame } := by
  obtain ⟨out, hreceive⟩ := transformReceive_eq s.recv frame
  unfold step
  dsimp only
  rw [hreceive]
  rfl

theorem storeReceived_def (t : Transformer κ) (rtpTimestamp : UInt32)
    (metadata : PacketTrailerMetadata) :
    t.storeReceived rtpTimestamp metadata =
      let kept := keptFor t metadata.ssrc
      let room := evict kMaxRecvMapEntries kept.1 kept.2
      { t with
        recvMap := insert rtpTimestamp metadata room.1
        recvMapOrder :=
          if (lookup rtpTimestamp kept.1).isSome then room.2 else room.2 ++ [rtpTimestamp]
        recvActiveSsrc := metadata.ssrc } := by
  dsimp only
  rw [← evictOldest_eq]
  rfl

/-- Where the entry of the timestamp is not evicted, it is stored as in any map of limited
capacity. -/
theorem storeReceived_eq_store (t : Transformer κ) (rtpTimestamp : UInt32)
    (metadata : PacketTrailerMetadata)
    (hordered : Ordered (keptFor t metadata.ssrc).1 (keptFor t metadata.ssrc).2)
    (hfit : (keptFor t metadata.ssrc).2.length ≤ kMaxRecvMapEntries)
    (hplace : (keptFor t metadata.ssrc).2.head? = some rtpTimestamp →
      (keptFor t metadata.ssrc).2.length < kMaxRecvMapEntries) :
    t.storeReceived rtpTimestamp metadata =
      let stored := store kMaxRecvMapEntries (keptFor t metadata.ssrc).1
        (keptFor t metadata.ssrc).2 rtpTimestamp metadata
      { t with
        recvMap := stored.1
        recvMapOrder := stored.2
        recvActiveSsrc := metadata.ssrc } := by
  rw [storeReceived_def]
  dsimp only
  rw [← lookup_evict hordered hfit hplace]
  rfl

/-- If every entry is stale, flushing leaves nothing. -/
theorem flushStale_all {ssrc : UInt32} {map : AssocMap UInt32 PacketTrailerMetadata}
    {order : List UInt32} (h : Ordered map order)
    (hstale : ∀ rtpTimestamp metadata,
      lookup rtpTimestamp map = some metadata → metadata.ssrc ≠ ssrc) :
    (flushStale ssrc map order).2 = [] ∧ Ordered (flushStale ssrc map order).1 [] := by
  induction order generalizing map with
  | nil => exact ⟨rfl, h⟩
  | cons first order ih =>
    have hthere := (h.mem_iff first).mp mem_cons_self
    obtain ⟨metadata, hmetadata⟩ := Option.isSome_iff_exists.mp hthere
    unfold flushStale
    rw [hmetadata]
    dsimp only
    rw [if_pos (hstale first metadata hmetadata)]
    apply ih h.tail
    intro rtpTimestamp other hlookup
    exact hstale rtpTimestamp other (AssocMap.of_lookup_erase hlookup).2

/-! ## The invariant -/

variable {record : List Event} {s : State κ}

structure Inv (record : List Event) (s : State κ) : Prop where
  recvOrdered : Ordered s.recv.recvMap s.recv.recvMapOrder
  recvInOrder : InOrder (recvInserted record) s.recv.recvMapOrder
  recvSize : s.recv.recvMapOrder.length ≤ kMaxRecvMapEntries
  active : s.recv.recvActiveSsrc = (received record).getLast?.getD 0
  layer : ∀ rtpTimestamp metadata, AList.lookup rtpTimestamp s.recv.recvMap = some metadata →
    metadata.ssrc = s.recv.recvActiveSsrc
  sendOrdered : Ordered s.send.sendMap s.send.sendMapOrder
  sendInOrder : InOrder (sendInserted record) s.send.sendMapOrder
  sendSize : s.send.sendMapOrder.length ≤ kMaxSendMapEntries

theorem inv_new (callback : Option κ) (sinkCallbacks : AssocMap UInt32 (Option κ)) :
    Inv [] (State.new callback sinkCallbacks) where
  recvOrdered := ordered_empty
  recvInOrder := inOrder_nil
  recvSize := Nat.zero_le _
  active := rfl
  layer := nofun
  sendOrdered := ordered_empty
  sendInOrder := inOrder_nil
  sendSize := Nat.zero_le _

/-- A lookup answers what the map has at the timestamp. -/
theorem lookupFrameMetadata_fst (t : Transformer κ) (rtpTimestamp : UInt32) :
    (t.lookupFrameMetadata rtpTimestamp).1 = lookup rtpTimestamp t.recvMap := by
  unfold Transformer.lookupFrameMetadata
  cases lookup rtpTimestamp t.recvMap with
  | none | some => rfl

/-- The invariant gives the consistency of the map with the events so far. -/
theorem Inv.consistent (h : Inv record s) : Consistent record s := by
  have hlayer : ∀ ssrc, (received record).getLast? = some ssrc → ∀ rtpTimestamp metadata,
      lookup rtpTimestamp s.recv.recvMap = some metadata → metadata.ssrc = ssrc := by
    intro ssrc hlast rtpTimestamp metadata hlookup
    rw [h.layer rtpTimestamp metadata hlookup, h.active, hlast, Option.getD_some]
  refine ⟨h.recvOrdered, h.recvInOrder, ?_, hlayer, ?_, h.sendOrdered, h.sendInOrder, ?_⟩
  · rw [h.recvOrdered.size]
    exact h.recvSize
  · intro ssrc hlast rtpTimestamp metadata hlookup
    rw [lookupFrameMetadata_fst] at hlookup
    exact hlayer ssrc hlast rtpTimestamp metadata hlookup
  · rw [h.sendOrdered.size]
    exact h.sendSize

/-- Either the map is as before, or it is flushed whole. -/
theorem Inv.kept_cases (h : Inv record s) (ssrc : UInt32) :
    (s.recv.recvActiveSsrc = 0 ∨ s.recv.recvActiveSsrc = ssrc) ∧
        keptFor s.recv ssrc = (s.recv.recvMap, s.recv.recvMapOrder) ∨
      s.recv.recvActiveSsrc ≠ 0 ∧ s.recv.recvActiveSsrc ≠ ssrc ∧
        (keptFor s.recv ssrc).2 = [] ∧ Ordered (keptFor s.recv ssrc).1 [] := by
  unfold keptFor
  by_cases hswitch : s.recv.recvActiveSsrc ≠ 0 ∧ s.recv.recvActiveSsrc ≠ ssrc
  · rw [if_pos hswitch]
    refine .inr ⟨hswitch.1, hswitch.2, ?_⟩
    apply flushStale_all h.recvOrdered
    intro rtpTimestamp metadata hlookup
    rw [h.layer rtpTimestamp metadata hlookup]
    exact hswitch.2
  · rw [if_neg hswitch]
    exact .inl ⟨by tauto, rfl⟩

/-! ## What a frame with metadata does to it -/

section Receive

variable {frame : Frame} {metadata : PacketTrailerMetadata}

/-- A frame with a trailer is noted, and so is the entry it newly makes. -/
theorem events_receive (s : State κ) (hmetadata : metadataOf frame = some metadata) :
    events s (.transformReceive frame) =
      .received frame.ssrc ::
        if fresh kMaxRecvMapEntries (keptFor s.recv frame.ssrc).1 (keptFor s.recv frame.ssrc).2
          frame.timestamp then [.recvInserted frame.timestamp] else [] := by
  unfold events
  dsimp only
  rw [hmetadata]

theorem received_append_receive (record : List Event) (s : State κ)
    (hmetadata : metadataOf frame = some metadata) :
    received (record ++ events s (.transformReceive frame)) = received record ++ [frame.ssrc] := by
  rw [events_receive s hmetadata]
  unfold received
  rw [filterMap_append]
  split
  · rfl
  · rfl

theorem recvInserted_append_receive (record : List Event) (s : State κ)
    (hmetadata : metadataOf frame = some metadata) :
    recvInserted (record ++ events s (.transformReceive frame)) = recvInserted record ++
      if fresh kMaxRecvMapEntries (keptFor s.recv frame.ssrc).1 (keptFor s.recv frame.ssrc).2
        frame.timestamp then [frame.timestamp] else [] := by
  rw [events_receive s hmetadata]
  unfold recvInserted
  rw [filterMap_append]
  split
  · rfl
  · rfl

theorem sendInserted_append_receive (record : List Event) (s : State κ)
    (hmetadata : metadataOf frame = some metadata) :
    sendInserted (record ++ events s (.transformReceive frame)) = sendInserted record := by
  rw [events_receive s hmetadata]
  unfold sendInserted
  rw [filterMap_append]
  split
  · exact append_nil _
  · exact append_nil _

theorem handled_of_some (t : Transformer κ) (hmetadata : metadataOf frame = some metadata) :
    handled t frame = t.storeReceived frame.timestamp { metadata with ssrc := frame.ssrc } := by
  unfold handled
  rw [hmetadata]

/-- What is kept for a frame is in order, has room for it, and is of its layer where the layers
are not mixed. -/
theorem Inv.kept (h : Inv record s) (ssrc : UInt32) :
    Ordered (keptFor s.recv ssrc).1 (keptFor s.recv ssrc).2 ∧
      InOrder (recvInserted record) (keptFor s.recv ssrc).2 ∧
      (keptFor s.recv ssrc).2.length ≤ kMaxRecvMapEntries := by
  rcases h.kept_cases ssrc with ⟨-, hkept⟩ | ⟨-, -, hempty, hordered⟩
  · rw [hkept]
    exact ⟨h.recvOrdered, h.recvInOrder, h.recvSize⟩
  · rw [hempty]
    exact ⟨hordered, h.recvInOrder.sublist (nil_sublist _), Nat.zero_le _⟩

/-- If the oldest kept entry has the frame's own timestamp, there is still room. -/
theorem Inv.kept_place (h : Inv record s) (hplace : NotEvicted s.recv frame)
    (hhead : (keptFor s.recv frame.ssrc).2.head? = some frame.timestamp) :
    (keptFor s.recv frame.ssrc).2.length < kMaxRecvMapEntries := by
  rcases h.kept_cases frame.ssrc with ⟨hsame, hkept⟩ | ⟨-, -, hempty, -⟩
  · rw [hkept] at hhead ⊢
    have hroom := hplace hsame hhead
    rw [h.recvOrdered.size] at hroom
    exact hroom
  · rw [hempty] at hhead
    cases hhead

/-- After a flush for the frame's stream every other entry is of that stream. -/
theorem Inv.kept_layer (h : Inv record s) (hlayer : NotMixed s.recv frame) {rtpTimestamp : UInt32}
    {other : PacketTrailerMetadata} (hne : rtpTimestamp ≠ frame.timestamp)
    (hlookup : lookup rtpTimestamp (keptFor s.recv frame.ssrc).1 = some other) :
    other.ssrc = frame.ssrc := by
  rcases h.kept_cases frame.ssrc with ⟨hsame, hkept⟩ | ⟨-, -, -, hordered⟩
  · rw [hkept] at hlookup
    rw [h.layer rtpTimestamp other hlookup]
    rcases hsame with hzero | hsame
    · by_contra hssrc
      have hmem := (h.recvOrdered.mem_iff rtpTimestamp).mpr (Option.isSome_of_eq_some hlookup)
      exact hne (hlayer hzero (fun hz => hssrc (hzero.trans hz.symm)) rtpTimestamp hmem)
    · exact hsame
  · have hbad := (hordered.mem_iff rtpTimestamp).mpr (Option.isSome_of_eq_some hlookup)
    cases hbad

section

variable (h : Inv record s) (hmetadata : metadataOf frame = some metadata)

include h hmetadata

/-- The invariant across a received frame. -/
theorem Inv.receive (hplace : NotEvicted s.recv frame) (hlayer : NotMixed s.recv frame) :
    Inv (record ++ events s (.transformReceive frame)) { s with recv := handled s.recv frame } := by
  obtain ⟨hordered, hinOrder, hfit⟩ := h.kept frame.ssrc
  have hstored := storeReceived_eq_store s.recv frame.timestamp
    { metadata with ssrc := frame.ssrc } hordered hfit (h.kept_place hplace)
  rw [handled_of_some s.recv hmetadata, hstored]
  refine ⟨store_ordered _ hordered _ _, ?_, ?_, ?_, ?_, h.sendOrdered, ?_, h.sendSize⟩
  · rw [recvInserted_append_receive record s hmetadata]
    exact store_inOrder _ hordered hinOrder _ { metadata with ssrc := frame.ssrc }
  · exact store_length_le (by decide) hordered _ { metadata with ssrc := frame.ssrc }
  · rw [received_append_receive record s hmetadata, getLast?_concat]
    rfl
  · intro rtpTimestamp other hlookup
    show other.ssrc = frame.ssrc
    by_cases hsame : rtpTimestamp = frame.timestamp
    · rw [hsame] at hlookup
      rw [← Option.some.inj (lookup_store_self.symm.trans hlookup)]
    · exact h.kept_layer hlayer hsame (lookup_of_store hsame hlookup)
  · rw [sendInserted_append_receive record s hmetadata]
    exact h.sendInOrder

/-- The entry of a frame that takes the place of the oldest one is not in the order. -/
theorem Inv.evicted (hplace : ¬ NotEvicted s.recv frame) :
    ¬ Ordered (handled s.recv frame).recvMap (handled s.recv frame).recvMapOrder := by
  unfold NotEvicted at hplace
  push Not at hplace
  obtain ⟨hsame, hhead, hfull⟩ := hplace
  have hkept : keptFor s.recv frame.ssrc = (s.recv.recvMap, s.recv.recvMapOrder) := by
    rcases h.kept_cases frame.ssrc with ⟨-, hkept⟩ | ⟨hzero, hssrc, -⟩
    · exact hkept
    · exact absurd hsame (not_or.mpr ⟨hzero, hssrc⟩)
  obtain ⟨rest, hrest⟩ := head?_eq_some_iff.mp hhead
  have hordered := h.recvOrdered
  have hsize := h.recvSize
  rw [hordered.size] at hfull
  rw [hrest] at hordered hsize hfull
  rw [length_cons] at hsize hfull
  have hthere := (hordered.mem_iff frame.timestamp).mp mem_cons_self
  rw [handled_of_some s.recv hmetadata, storeReceived_def]
  dsimp only
  rw [hkept]
  dsimp only
  rw [if_pos hthere, hrest, evict_of_full hordered (by omega)]
  intro hbad
  have hmem := (hbad.mem_iff frame.timestamp).mpr (by rw [lookup_insert]; rfl)
  exact (nodup_cons.mp hordered.nodup).1 hmem

/-- What is left of the SSRC 0 is taken for the new layer. -/
theorem Inv.mixed (hlayer : ¬ NotMixed s.recv frame) :
    ¬ ∀ rtpTimestamp other,
      lookup rtpTimestamp (handled s.recv frame).recvMap = some other →
        other.ssrc = frame.ssrc := by
  unfold NotMixed at hlayer
  push Not at hlayer
  obtain ⟨hzero, hssrc, first, hfirst, hne⟩ := hlayer
  have hkept : keptFor s.recv frame.ssrc = (s.recv.recvMap, s.recv.recvMapOrder) :=
    if_neg fun hswitch => hswitch.1 hzero
  -- an entry of another timestamp is left after the eviction
  have hleft : ∃ rtpTimestamp ∈
      (evict kMaxRecvMapEntries s.recv.recvMap s.recv.recvMapOrder).2,
        rtpTimestamp ≠ frame.timestamp := by
    by_cases hroom : s.recv.recvMapOrder.length < kMaxRecvMapEntries
    · rw [evict_of_lt (by rw [h.recvOrdered.size]; exact hroom)]
      exact ⟨first, hfirst, hne⟩
    · have hfull := Nat.le_antisymm h.recvSize (Nat.not_lt.mp hroom)
      have hordered := h.recvOrdered
      cases horder : s.recv.recvMapOrder with
      | nil =>
        rw [horder] at hfirst
        cases hfirst
      | cons oldest rest =>
        rw [horder] at hfull hordered
        rw [evict_of_full hordered hfull]
        by_contra hall
        push Not at hall
        have hsub : rest ⊆ [frame.timestamp] := fun k hk => mem_singleton.mpr (hall k hk)
        have hle := (subperm_of_subset (nodup_cons.mp hordered.nodup).2 hsub).length_le
        rw [length_cons] at hfull
        rw [length_singleton] at hle
        unfold kMaxRecvMapEntries at hfull
        omega
  obtain ⟨rtpTimestamp, hmem, hother⟩ := hleft
  have hevict : Ordered (evict kMaxRecvMapEntries s.recv.recvMap s.recv.recvMapOrder).1
      (evict kMaxRecvMapEntries s.recv.recvMap s.recv.recvMapOrder).2 := evict_ordered h.recvOrdered
  obtain ⟨other, hlookup⟩ := Option.isSome_iff_exists.mp ((hevict.mem_iff rtpTimestamp).mp hmem)
  intro hall
  have hnew : other.ssrc = frame.ssrc := by
    apply hall rtpTimestamp
    rw [handled_of_some s.recv hmetadata, storeReceived_def]
    dsimp only
    rw [hkept, AssocMap.lookup_insert_ite, if_neg hother]
    exact hlookup
  rw [h.layer rtpTimestamp other (lookup_of_evict hlookup), hzero] at hnew
  exact hssrc hnew.symm

end

end Receive

/-! ## The other steps -/

/-- The invariant across a lookup. -/
theorem Inv.lookup (h : Inv record s) (rtpTimestamp : UInt32) :
    Inv record { s with recv := (s.recv.lookupFrameMetadata rtpTimestamp).2 } := by
  unfold Transformer.lookupFrameMetadata
  cases hlookup : AList.lookup rtpTimestamp s.recv.recvMap with
  | none => exact h
  | some metadata =>
    refine ⟨erase_ordered h.recvOrdered _, h.recvInOrder.sublist erase_sublist, ?_, h.active,
      ?_, h.sendOrdered, h.sendInOrder, h.sendSize⟩
    · exact erase_sublist.length_le.trans h.recvSize
    · intro k other hother
      dsimp only at hother
      exact h.layer k other (AssocMap.of_lookup_erase hother).2

/-- The invariant across a stored frame on the sending side. -/
theorem Inv.store (h : Inv record s) (captureTimestampUs : Int) (userTimestamp : UInt64)
    (frameId : UInt32) :
    Inv (record ++ events s (.storeFrameMetadata captureTimestampUs userTimestamp frameId))
      { s with send := s.send.storeFrameMetadata captureTimestampUs userTimestamp frameId } := by
  have hevents : ∀ inserted,
      events s (.storeFrameMetadata captureTimestampUs userTimestamp frameId) = inserted →
        received (record ++ inserted) = received record ∧
          recvInserted (record ++ inserted) = recvInserted record ∧
          sendInserted (record ++ inserted) = sendInserted record ++
            if fresh kMaxSendMapEntries s.send.sendMap s.send.sendMapOrder
              (captureTime captureTimestampUs) then [captureTime captureTimestampUs] else [] := by
    rintro inserted rfl
    unfold events received recvInserted sendInserted
    dsimp only
    rw [filterMap_append, filterMap_append, filterMap_append]
    split
    · exact ⟨append_nil _, append_nil _, rfl⟩
    · exact ⟨append_nil _, append_nil _, rfl⟩
  obtain ⟨hreceived, hrecv, hsend⟩ := hevents _ rfl
  refine ⟨h.recvOrdered, ?_, h.recvSize, ?_, h.layer, store_ordered _ h.sendOrdered _ _, ?_, ?_⟩
  · rw [hrecv]
    exact h.recvInOrder
  · rw [hreceived]
    exact h.active
  · rw [hsend]
    exact store_inOrder _ h.sendOrdered h.sendInOrder _ ⟨userTimestamp, frameId, 0⟩
  · exact store_length_le (by decide) h.sendOrdered _ ⟨userTimestamp, frameId, 0⟩

/-- A frame without metadata changes nothing. -/
theorem receive_of_none {frame : Frame} (s : State κ) (hmetadata : metadataOf frame = none) :
    events s (.transformReceive frame) = [] ∧ handled s.recv frame = s.recv := by
  unfold events handled
  dsimp only
  rw [hmetadata]
  exact ⟨rfl, rfl⟩

/-- A step is harmless and keeps the invariant, or it is not, and the maps are inconsistent. -/
theorem inv_step {s' : State κ} (h : Inv record s) (a : Action) (hstep : step s a = some s') :
    Harmless s a s' ∧ Inv (record ++ events s a) s' ∨
      ¬ Harmless s a s' ∧ ¬ Consistent (record ++ events s a) s' := by
  cases a with
  | transformReceive frame =>
    rw [step_receive, Option.some.injEq] at hstep
    subst hstep
    cases hmetadata : metadataOf frame with
    | none =>
      obtain ⟨hnothing, hsame⟩ := receive_of_none s hmetadata
      rw [hnothing, hsame, append_nil]
      exact .inl ⟨fun hsome => absurd hmetadata hsome, h⟩
    | some metadata =>
      have hsome : metadataOf frame ≠ none := by
        rw [hmetadata]
        exact Option.some_ne_none metadata
      by_cases hplace : NotEvicted s.recv frame
      · by_cases hlayer : NotMixed s.recv frame
        · exact .inl ⟨fun _ => ⟨hplace, hlayer⟩, h.receive hmetadata hplace hlayer⟩
        · refine .inr ⟨fun hall => hlayer (hall hsome).2, fun hbad => ?_⟩
          apply h.mixed hmetadata hlayer
          apply hbad.oneLayer
          rw [received_append_receive record s hmetadata]
          exact getLast?_concat
      · exact .inr ⟨fun hall => hplace (hall hsome).1,
          fun hbad => h.evicted hmetadata hplace hbad.recvOrdered⟩
  | lookupFrameMetadata rtpTimestamp =>
    rw [step, Option.some.injEq] at hstep
    subst hstep
    show _ ∧ Inv (record ++ []) _ ∨ _
    rw [append_nil]
    exact .inl ⟨trivial, h.lookup rtpTimestamp⟩
  | storeFrameMetadata captureTimestampUs userTimestamp frameId =>
    rw [step, Option.some.injEq] at hstep
    subst hstep
    exact .inl ⟨trivial, h.store captureTimestampUs userTimestamp frameId⟩

/-- In every state of a run the maps and their orders are consistent, of a limited size, and of one
layer, if and only if no frame with metadata comes at the timestamp of the entry that is evicted
for it, and none of another SSRC after entries of the SSRC 0. -/
theorem consistent_iff (callback : Option κ) (sinkCallbacks : AssocMap UInt32 (Option κ))
    (run : List Action) :
    Always step events Consistent (State.new callback sinkCallbacks) run ↔
      EachStep step Harmless (State.new callback sinkCallbacks) run :=
  always_iff_eachStep (I := Inv) (fun _ _ h => h.consistent)
    (fun _ _ a _ h hstep => inv_step h a hstep) (inv_new callback sinkCallbacks) run

/-! ## A timestamp that comes again -/

/-- A frame of the SSRC 7 with the frame id 1. -/
def frameAt (n : ℕ) : Frame := ⟨7, UInt32.ofNat n, appendTrailer [] 0 1⟩

def filling (n : ℕ) : List Action := (List.range n).map fun i => .transformReceive (frameAt i)

theorem metadataOf_frameAt (n : ℕ) : metadataOf (frameAt n) = some ⟨0, 1, 0⟩ := by
  unfold metadataOf
  show (extractTrailer (appendTrailer [] 0 1)).bind Prod.fst = _
  rw [extractTrailer_appendTrailer]
  rfl

/-- The map after as many frames of one stream as it has room for. -/
theorem filled (n : ℕ) (hn : n ≤ 300) :
    ∃ record s, exec step (State.new (none : Option Unit) ∅) (filling n) = some s ∧ Inv record s ∧
      s.recv.recvMapOrder = (List.range n).map UInt32.ofNat ∧
      s.recv.recvActiveSsrc = if n = 0 then 0 else 7 := by
  induction n with
  | zero => exact ⟨[], _, rfl, inv_new _ _, rfl, rfl⟩
  | succ n ih =>
    obtain ⟨record, s, hexec, hinv, horder, hactive⟩ := ih (by omega)
    have hsize : s.recv.recvMapOrder.length = n := by
      rw [horder, length_map, length_range]
    have hroom : AssocMap.size s.recv.recvMap < kMaxRecvMapEntries := by
      rw [hinv.recvOrdered.size, hsize]
      exact hn
    have hmixed : NotMixed s.recv (frameAt n) := by
      intro hzero _
      rw [hactive] at hzero
      split at hzero
      · rename_i hfirst
        rw [horder, hfirst]
        nofun
      · cases hzero
    have hnew : UInt32.ofNat n ∉ s.recv.recvMapOrder := by
      rw [horder, mem_map]
      rintro ⟨m, hm, heq⟩
      have hlt := mem_range.mp hm
      have hnat := congrArg UInt32.toNat heq
      have hsmall : 300 < UInt32.size := by decide
      rw [UInt32.toNat_ofNat_of_lt' (by omega), UInt32.toNat_ofNat_of_lt' (by omega)] at hnat
      omega
    refine ⟨_, _, ?_, hinv.receive (metadataOf_frameAt n) (fun _ _ => hroom) hmixed, ?_, ?_⟩
    · unfold filling at hexec ⊢
      rw [range_succ, map_append]
      exact exec_append.mpr ⟨s, hexec, exec_single (step_receive s (frameAt n))⟩
    · have hkept : keptFor s.recv 7 = (s.recv.recvMap, s.recv.recvMapOrder) := by
        unfold keptFor
        rw [hactive]
        split
        · exact if_neg fun hswitch => hswitch.1 rfl
        · exact if_neg fun hswitch => hswitch.2 rfl
      have hnone : ¬ (lookup (UInt32.ofNat n) s.recv.recvMap).isSome = true := by
        rw [← hinv.recvOrdered.mem_iff]
        exact hnew
      show (handled s.recv (frameAt n)).recvMapOrder = _
      rw [handled_of_some s.recv (metadataOf_frameAt n), storeReceived_def]
      show (if (lookup (UInt32.ofNat n) (keptFor s.recv 7).1).isSome = true then
        (evict kMaxRecvMapEntries (keptFor s.recv 7).1 (keptFor s.recv 7).2).2 else
        (evict kMaxRecvMapEntries (keptFor s.recv 7).1 (keptFor s.recv 7).2).2 ++ _) = _
      rw [hkept, if_neg hnone, evict_of_lt hroom, horder, range_succ, map_append]
      rfl
    · show (handled s.recv (frameAt n)).recvActiveSsrc = _
      rw [handled_of_some s.recv (metadataOf_frameAt n), if_neg (Nat.succ_ne_zero n)]
      rfl

/-- After 300 frames, one with the timestamp of the first is kept, but it is not in the order. -/
theorem repeated_timestamp_is_lost :
    ¬ Always step events Consistent (State.new (none : Option Unit) ∅)
      (filling 300 ++ [.transformReceive (frameAt 0)]) := by
  intro hall
  obtain ⟨record, s, hexec, hinv, horder, hactive⟩ := filled 300 (Nat.le_refl _)
  have hbad := hall _ [] _ (append_nil _).symm
    (exec_append.mpr ⟨s, hexec, exec_single (step_receive s (frameAt 0))⟩)
  apply hinv.evicted (metadataOf_frameAt 0) _ hbad.recvOrdered
  intro hplace
  have hroom : AssocMap.size s.recv.recvMap < kMaxRecvMapEntries := by
    apply hplace (.inr hactive)
    rw [horder]
    rfl
  rw [hinv.recvOrdered.size, horder, length_map, length_range] at hroom
  exact Nat.lt_irrefl _ hroom

end LiveKit.PacketTrailer.MetadataMaps
