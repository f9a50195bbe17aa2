import LiveKit.Room.Speakers
import Mathlib.Algebra.Order.Ring.Nat

/-!
# The active speakers, when they are those that speak

A message replaces the whole list, so it has to have every speaker of the room; what happens to the
participants leaves the list alone, so nobody on it may go. A participant object that is created is
not speaking, and one that has left never comes back.
-/

namespace LiveKit.Room.Speakers

open LiveKit.RtcSession (ParticipantSid ParticipantIdentity)
open AList List TransitionSystem

namespace State

variable {α : Type}

/-! ## A message -/

variable {participant : Handle}

theorem participantOf_inRoom {s : State α} {first : ℕ} {sid : ParticipantSid}
    (h : s.participantOf first sid = some participant) : s.InRoom participant := by
  unfold participantOf at h
  split at h
  next =>
    cases h
    trivial
  next =>
    obtain ⟨entry, hentry, rfl⟩ := Option.map_eq_some_iff.mp h
    have hlookup := (State.getParticipantBySid_some hentry).1
    exact ⟨entry.1, by rw [hlookup]; rfl, rfl⟩

theorem flags_cons (s : State α) (speaker : SpeakerInfo α) (rest : List (SpeakerInfo α))
    (participant : Handle) :
    s.flags (speaker :: rest) participant =
      if s.participantOf speaker.first speaker.sid = some participant then
        speaker.active :: s.flags rest participant
      else s.flags rest participant := by
  unfold flags
  rw [filter_cons]
  by_cases h : s.participantOf speaker.first speaker.sid = some participant
  · rw [if_pos (by simpa using h), if_pos h, map_cons]
  · rw [if_neg (by simpa using h), if_neg h]

theorem inRoom_of_flags {s : State α} {speakersInfo : List (SpeakerInfo α)}
    (h : s.flags speakersInfo participant ≠ []) : s.InRoom participant := by
  obtain ⟨active, hactive⟩ := exists_mem_of_ne_nil _ h
  obtain ⟨speaker, hspeaker, -⟩ := mem_map.mp hactive
  have hmatch := (mem_filter.mp hspeaker).2
  exact participantOf_inRoom (of_decide_eq_true hmatch)

/-- A message leaves the table as it is. -/
theorem setVoices_frame (s : State α) (speakers : List Handle)
    (speakersInfo : List (SpeakerInfo α)) :
    (s.setVoices speakers speakersInfo).1.room = s.room ∧
      (s.setVoices speakers speakersInfo).1.keptUnder = s.keptUnder ∧
      (s.setVoices speakers speakersInfo).1.created = s.created := by
  induction speakersInfo generalizing s speakers with
  | nil => exact ⟨rfl, rfl, rfl⟩
  | cons speaker rest ih =>
    rw [setVoices]
    split
    next => exact ih s speakers
    next participant _ => exact ih (s.setVoice participant speaker.active speaker.level) _

/-- The last entry for a participant says whether it is speaking, and how often it is put on the
list. -/
theorem setVoices_speaking (s : State α) (speakers : List Handle)
    (speakersInfo : List (SpeakerInfo α)) (participant : Handle) :
    ((s.setVoices speakers speakersInfo).1.voices participant).speaking =
        (s.flags speakersInfo participant).getLast?.getD (s.voices participant).speaking ∧
      (s.setVoices speakers speakersInfo).2.count participant =
        speakers.count participant + (s.flags speakersInfo participant).count true := by
  induction speakersInfo generalizing s speakers with
  | nil => exact ⟨rfl, rfl⟩
  | cons speaker rest ih =>
    rw [setVoices, flags_cons]
    cases hof : s.participantOf speaker.first speaker.sid with
    | none =>
      rw [if_neg (by simp)]
      exact ih s speakers
    | some h =>
      obtain ⟨hspeaking, hcount⟩ := ih (s.setVoice h speaker.active speaker.level)
        (if speaker.active then speakers ++ [h] else speakers)
      have hflags : (s.setVoice h speaker.active speaker.level).flags rest participant =
          s.flags rest participant := rfl
      rw [hflags] at hspeaking hcount
      dsimp only
      rw [hspeaking, hcount]
      by_cases heq : h = participant
      · have hvoice : ((s.setVoice h speaker.active speaker.level).voices participant).speaking =
            speaker.active := by
          rw [heq]
          show (Function.update s.voices participant _ participant).speaking = _
          rw [Function.update_self]
        rw [hvoice, if_pos (congrArg some heq), getLast?_cons, Option.getD_some, heq]
        refine ⟨rfl, ?_⟩
        cases speaker.active with
        | true =>
          rw [if_pos rfl, count_append, count_singleton_self, count_cons_self]
          omega
        | false => rw [if_neg (by decide), count_cons_of_ne (by decide)]
      · have hvoice : (s.setVoice h speaker.active speaker.level).voices participant =
            s.voices participant := Function.update_of_ne (Ne.symm heq) _ _
        have hother : [h].count participant = 0 := by
          apply count_eq_zero_of_not_mem
          rw [mem_singleton]
          exact Ne.symm heq
        rw [hvoice, if_neg fun hbad => heq (Option.some.inj hbad)]
        refine ⟨rfl, ?_⟩
        cases speaker.active with
        | true => rw [if_pos rfl, count_append, hother, Nat.add_zero]
        | false => rw [if_neg (by decide)]

/-- Only the last flag may be set if their number is to be that of the last. -/
theorem dropLast_false_iff (flags : List Bool) (last : Bool) :
    (∀ b ∈ (flags ++ [last]).dropLast, b = false) ↔
      (flags ++ [last]).count true = if last then 1 else 0 := by
  rw [dropLast_concat, count_append]
  have hlast : [last].count true = if last then 1 else 0 := by cases last <;> rfl
  rw [hlast, Nat.add_eq_right, count_eq_zero]
  constructor
  · intro h hin
    cases h true hin
  · intro h b hb
    cases b with
    | false => rfl
    | true => exact absurd hb h

section
variable [LinearOrder α]

/-- A list that has each participant as often as it should. -/
theorem speakersAgree_iff_count {s : State α}
    (hordered : s.activeSpeakers.Pairwise fun a b =>
      (s.voices a).audioLevel ≤ (s.voices b).audioLevel) :
    s.SpeakersAgree ↔ ∀ participant,
      (s.InRoom participant ∧ s.IsSpeaking participant →
        s.activeSpeakers.count participant = 1) ∧
      (¬ (s.InRoom participant ∧ s.IsSpeaking participant) →
        s.activeSpeakers.count participant = 0) := by
  constructor
  · intro h participant
    constructor
    · intro hin
      exact count_eq_one_of_mem h.once ((h.speaking participant).mpr hin)
    · intro hout
      exact count_eq_zero_of_not_mem fun hin => hout ((h.speaking participant).mp hin)
  · intro h
    refine ⟨nodup_iff_count_le_one.mpr fun participant => ?_, fun participant => ?_, hordered⟩
    · have hone := (h participant).1
      have hzero := (h participant).2
      by_cases hin : s.InRoom participant ∧ s.IsSpeaking participant
      · rw [hone hin]
      · rw [hzero hin]
        omega
    · constructor
      · intro hmem
        by_contra hout
        have hpos := count_pos_iff.mpr hmem
        rw [(h participant).2 hout] at hpos
        omega
      · intro hin
        apply count_pos_iff.mp
        rw [(h participant).1 hin]
        omega

theorem handleSpeakersChanged_ordered (s : State α) (speakersInfo : List (SpeakerInfo α)) :
    (s.handleSpeakersChanged speakersInfo).activeSpeakers.Pairwise fun a b =>
      ((s.handleSpeakersChanged speakersInfo).voices a).audioLevel ≤
        ((s.handleSpeakersChanged speakersInfo).voices b).audioLevel := by
  let r : Handle → Handle → Prop := fun a b =>
    ((s.setVoices [] speakersInfo).1.voices a).audioLevel ≤
      ((s.setVoices [] speakersInfo).1.voices b).audioLevel
  have htotal : Std.Total r := ⟨fun _ _ => le_total _ _⟩
  have htrans : IsTrans Handle r := ⟨fun _ _ _ => le_trans⟩
  exact pairwise_insertionSort r _

/-- The list is right after a message exactly if the message has every speaker. -/
theorem speakersAgree_message (s : State α) (speakersInfo : List (SpeakerInfo α)) :
    (s.handleSpeakersChanged speakersInfo).SpeakersAgree ↔ s.HasEverySpeaker speakersInfo := by
  have hcount : ∀ participant,
      (s.handleSpeakersChanged speakersInfo).activeSpeakers.count participant =
        (s.flags speakersInfo participant).count true := by
    intro participant
    have hvoices := (setVoices_speaking s [] speakersInfo participant).2
    rw [count_nil, Nat.zero_add] at hvoices
    rw [← hvoices]
    exact (perm_insertionSort _ _).count_eq participant
  have hspeaking : ∀ participant,
      (s.handleSpeakersChanged speakersInfo).IsSpeaking participant ↔
        (s.flags speakersInfo participant).getLast?.getD
          (s.voices participant).speaking = true := by
    intro participant
    rw [← (setVoices_speaking s [] speakersInfo participant).1]
    rfl
  have hroom : ∀ participant,
      (s.handleSpeakersChanged speakersInfo).InRoom participant ↔ s.InRoom participant := by
    intro participant
    have hframe := setVoices_frame s [] speakersInfo
    cases participant with
    | localParticipant => exact Iff.rfl
    | remote id =>
      show (∃ identity, (lookup identity
          (s.setVoices [] speakersInfo).1.room.remoteParticipants).isSome ∧
        (s.setVoices [] speakersInfo).1.keptUnder identity = id) ↔ _
      rw [hframe.1, hframe.2.1]
      rfl
  rw [speakersAgree_iff_count (handleSpeakersChanged_ordered s speakersInfo)]
  apply forall_congr'
  intro participant
  rw [hcount, hroom, hspeaking]
  -- by the flags of the participant: none, or some before the last
  cases eq_nil_or_concat (s.flags speakersInfo participant) with
  | inl hnil =>
    rw [hnil]
    constructor
    · intro h hin
      refine ⟨fun _ hwas => ?_, fun _ hbad => absurd hbad not_mem_nil⟩
      exact absurd (h.1 ⟨hin, hwas⟩) (by decide)
    · intro h
      refine ⟨fun hboth => ?_, fun _ => rfl⟩
      exact absurd hboth.2 ((h hboth.1).1 rfl)
  | inr hconcat =>
    obtain ⟨before, last, heq⟩ := hconcat
    rw [concat_eq_append] at heq
    have hin : s.InRoom participant := inRoom_of_flags (by
      rw [heq]
      exact append_ne_nil_of_right_ne_nil _ (cons_ne_nil _ _))
    have hone := dropLast_false_iff before last
    rw [heq, getLast?_concat, Option.getD_some, forall_prop_of_true hin, hone]
    constructor
    · intro h
      refine ⟨fun hbad => ?_, ?_⟩
      · exact absurd hbad (append_ne_nil_of_right_ne_nil _ (cons_ne_nil _ _))
      · cases last with
        | true => exact h.1 ⟨hin, rfl⟩
        | false => exact h.2 fun hboth => absurd hboth.2 (by decide)
    · intro h
      refine ⟨fun hboth => ?_, fun hnot => ?_⟩
      · rw [h.2, hboth.2]
        rfl
      · rw [h.2, if_neg fun hlast => hnot ⟨hin, hlast⟩]

end

/-! ## The participants -/

theorem lookup_removeOld (room : Room.State) (pi : ParticipantInfo)
    (identity : ParticipantIdentity)
    (h : (lookup identity (room.removeOld pi).1.remoteParticipants).isSome) :
    (lookup identity room.remoteParticipants).isSome := by
  unfold State.removeOld at h
  split at h
  next p _ =>
    split at h
    next =>
      rw [State.lookup_disconnect] at h
      split at h
      next => cases h
      next => exact h
    next => exact h
  next => exact h

theorem connected?_removeOld (room : Room.State) (pi : ParticipantInfo) (events : List RoomEvent) :
    connected? ((room.removeOld pi).2 ++ events) = connected? events := by
  unfold State.removeOld
  split
  next =>
    split
    next => rfl
    next => rfl
  next => rfl

/-- Who is in the table after a turn was in it, or the turn created the participant. -/
theorem lookup_turn {room : Room.State} {first : ℕ} {pi : ParticipantInfo}
    {identity : ParticipantIdentity}
    (h : (lookup identity
      (room.handleParticipantInfo first pi).1.remoteParticipants).isSome) :
    (lookup identity room.remoteParticipants).isSome ∨
      ∃ p, connected? (room.handleParticipantInfo first pi).2.1 = some p ∧
        p.identity = identity := by
  unfold State.handleParticipantInfo at h ⊢
  split at h
  next => exact .inl h
  next hlocal =>
    rw [if_neg hlocal]
    dsimp only at h ⊢
    rw [connected?_removeOld]
    have hbefore := lookup_removeOld room pi identity
    generalize (room.removeOld pi).1 = mid at h hbefore ⊢
    unfold State.updateRemote at h ⊢
    cases hfound : mid.getParticipantBySid first pi.sid with
    | some entry =>
      have hkept := (State.getParticipantBySid_some hfound).1
      have hupdated : ∀ p, (lookup identity
          (insert entry.1 p mid.remoteParticipants)).isSome →
          (lookup identity mid.remoteParticipants).isSome := by
        intro p hp
        obtain ⟨q, hq⟩ := Option.isSome_iff_exists.mp hp
        rcases AssocMap.of_lookup_insert hq with ⟨rfl, -⟩ | ⟨-, hq⟩
        · rw [hkept]
          rfl
        · rw [hq]
          rfl
      rw [hfound] at h
      dsimp only at h
      left
      split at h
      next =>
        rw [State.lookup_disconnect] at h
        split at h
        next => cases h
        next => exact hbefore (hupdated _ h)
      next => exact hbefore (hupdated _ h)
    | none =>
      rw [hfound] at h
      dsimp only at h ⊢
      split at h
      next => exact .inl (hbefore h)
      next hstate =>
        rw [if_neg hstate]
        rw [State.createParticipant, AssocMap.lookup_insert_ite] at h
        split at h
        next heq => exact .inr ⟨_, rfl, heq.symm⟩
        next => exact .inl (hbefore h)

theorem lookup_disconnectAll (room : Room.State)
    (participants : List (ParticipantIdentity × RemoteParticipant))
    {identity : ParticipantIdentity}
    (h : (lookup identity (room.disconnectAll participants).1.remoteParticipants).isSome) :
    (lookup identity room.remoteParticipants).isSome := by
  induction participants generalizing room with
  | nil => exact h
  | cons entry participants ih =>
    have hrest := ih (room.handleParticipantDisconnect entry.2).1 h
    rw [State.lookup_disconnect] at hrest
    split at hrest
    next => cases hrest
    next => exact hrest

/-- The participant has been created. -/
def Known (s : State α) : Handle → Prop
  | .localParticipant => True
  | .remote id => id < s.created

/-- What the participants of a room can become without a message about speakers. -/
structure Later (s s' : State α) : Prop where
  activeSpeakers : s'.activeSpeakers = s.activeSpeakers
  created_le : s.created ≤ s'.created
  voices : ∀ participant, s.Known participant → s'.voices participant = s.voices participant
  inRoom : ∀ participant, s'.InRoom participant → s.InRoom participant ∨
    ¬ s.Known participant ∧ s'.Known participant ∧ ¬ s'.IsSpeaking participant

namespace Later

variable {s s' s'' : State α}

theorem refl (s : State α) : Later s s := ⟨rfl, le_refl _, fun _ _ => rfl, fun _ => .inl⟩

theorem known (h : Later s s') (hknown : s.Known participant) :
    s'.Known participant := by
  cases participant with
  | localParticipant => trivial
  | remote id => exact lt_of_lt_of_le hknown h.created_le

theorem trans (h : Later s s') (h' : Later s' s'') : Later s s'' where
  activeSpeakers := h'.activeSpeakers.trans h.activeSpeakers
  created_le := h.created_le.trans h'.created_le
  voices participant hknown :=
    (h'.voices participant (h.known hknown)).trans (h.voices participant hknown)
  inRoom := by
    intro participant hin
    cases h'.inRoom participant hin with
    | inr hnew => exact .inr ⟨fun hknown => hnew.1 (h.known hknown), hnew.2⟩
    | inl hmid =>
      cases h.inRoom participant hmid with
      | inl hold => exact .inl hold
      | inr hnew =>
        refine .inr ⟨hnew.1, h'.known hnew.2.1, ?_⟩
        unfold IsSpeaking
        rw [h'.voices participant hnew.2.1]
        exact hnew.2.2

/-- Only the table changes, and it does not grow. -/
theorem of_room {room : Room.State}
    (h : ∀ identity, (lookup identity room.remoteParticipants).isSome →
      (lookup identity s.room.remoteParticipants).isSome) :
    Later s { s with room := room } where
  activeSpeakers := rfl
  created_le := le_refl _
  voices _ _ := rfl
  inRoom := by
    intro participant hin
    cases participant with
    | localParticipant => exact .inl trivial
    | remote id =>
      obtain ⟨identity, hkept, heq⟩ := hin
      exact .inl ⟨identity, h identity hkept, heq⟩

end Later

variable [Zero α]

theorem later_participantInfo (s : State α) (first : ℕ) (pi : ParticipantInfo) :
    Later s (s.participantInfo first pi) := by
  unfold participantInfo
  dsimp only
  cases hcon : connected? (s.room.handleParticipantInfo first pi).2.1 with
  | none =>
    refine Later.of_room fun identity h => ?_
    refine (lookup_turn h).resolve_right fun hnew => ?_
    obtain ⟨p, hp, -⟩ := hnew
    rw [hcon] at hp
    cases hp
  | some p =>
    refine ⟨rfl, Nat.le_succ _, fun participant hknown => ?_, fun participant hin => ?_⟩
    · apply Function.update_of_ne
      intro heq
      rw [heq] at hknown
      exact absurd hknown (lt_irrefl _)
    · cases participant with
      | localParticipant => exact .inl trivial
      | remote id =>
        obtain ⟨identity, hlookup, hkept⟩ := hin
        dsimp only at hlookup hkept
        by_cases heq : identity = p.identity
        · -- the participant that the turn created
          rw [heq, Function.update_self] at hkept
          refine .inr ⟨?_, ?_, ?_⟩
          · rw [← hkept]
            exact lt_irrefl _
          · rw [← hkept]
            exact Nat.lt_succ_self _
          · unfold IsSpeaking
            rw [← hkept]
            dsimp only
            rw [Function.update_self]
            exact Bool.false_ne_true
        · rw [Function.update_of_ne heq] at hkept
          refine .inl ⟨identity, ?_, hkept⟩
          refine (lookup_turn hlookup).resolve_right fun hnew => ?_
          obtain ⟨q, hq, hidentity⟩ := hnew
          rw [hcon, Option.some.injEq] at hq
          rw [hq] at heq
          exact heq hidentity.symm

theorem later_participantInfos (s : State α) (updates : List (ℕ × ParticipantInfo)) :
    Later s (s.participantInfos updates) := by
  induction updates generalizing s with
  | nil => exact Later.refl s
  | cons update updates ih =>
    exact (later_participantInfo s update.1 update.2).trans (ih _)

theorem later_onEngineEvent (s : State α) (event : EngineEvent) :
    Later s (s.onEngineEvent event) := by
  cases event with
  | participantUpdate updates => exact later_participantInfos s updates
  | restarting => exact Later.of_room fun _ => lookup_disconnectAll _ _
  | signalRestarted joinResponse =>
    have hlocal : Later s { s with room := s.room.updateLocal joinResponse.participant } :=
      Later.of_room fun _ h => h
    exact hlocal.trans (later_participantInfos _ joinResponse.otherParticipants)
  | resuming | signalResumed | resumed | restarted => exact Later.refl s

/-! ## Runs -/

variable [LinearOrder α]

/-- Who is in the room has been created. -/
def Bounded (s : State α) : Prop := ∀ participant, s.InRoom participant → s.Known participant

omit [Zero α] [LinearOrder α] in
theorem Later.bounded {s s' : State α} (h : Later s s') (hbounded : s.Bounded) : s'.Bounded := by
  intro participant hin
  cases h.inRoom participant hin with
  | inl hold => exact h.known (hbounded participant hold)
  | inr hnew => exact hnew.2.1

omit [Zero α] in
/-- The list stays right exactly if nobody who is speaking leaves. -/
theorem Later.speakersAgree_iff {s s' : State α} (h : Later s s') (hbounded : s.Bounded)
    (hagree : s.SpeakersAgree) :
    s'.SpeakersAgree ↔
      ∀ participant, s.InRoom participant → s.IsSpeaking participant → s'.InRoom participant := by
  have hmem : ∀ participant, participant ∈ s'.activeSpeakers ↔
      s.InRoom participant ∧ s.IsSpeaking participant := by
    intro participant
    rw [h.activeSpeakers]
    exact hagree.speaking participant
  have hvoice : ∀ participant ∈ s.activeSpeakers,
      s'.voices participant = s.voices participant := by
    intro participant hin
    exact h.voices participant (hbounded participant ((hagree.speaking participant).mp hin).1)
  constructor
  · intro hagree' participant hin hspeaking
    exact ((hagree'.speaking participant).mp ((hmem participant).mpr ⟨hin, hspeaking⟩)).1
  · intro hstay
    refine ⟨?_, fun participant => ?_, ?_⟩
    · rw [h.activeSpeakers]
      exact hagree.once
    · rw [hmem]
      constructor
      · intro hboth
        refine ⟨hstay participant hboth.1 hboth.2, ?_⟩
        unfold IsSpeaking
        rw [h.voices participant (hbounded participant hboth.1)]
        exact hboth.2
      · intro hboth
        cases h.inRoom participant hboth.1 with
        | inr hnew => exact absurd hboth.2 hnew.2.2
        | inl hold =>
          refine ⟨hold, ?_⟩
          have hspeaking := hboth.2
          unfold IsSpeaking at hspeaking
          rwa [h.voices participant (hbounded participant hold)] at hspeaking
    · rw [h.activeSpeakers]
      refine hagree.ordered.imp_of_mem ?_
      intro a b ha hb hle
      rw [hvoice a ha, hvoice b hb]
      exact hle

/-- What holds as long as the list is right. -/
def SpeakerInv (told : List (List Handle)) (s : State α) : Prop := Agrees told s ∧ s.Bounded

theorem speakerInv_new (localParticipant : LocalParticipant) :
    SpeakerInv [] (new localParticipant : State α) := by
  refine ⟨⟨⟨nodup_nil, fun participant => ?_, List.Pairwise.nil⟩, rfl⟩, ?_⟩
  · refine ⟨fun hin => absurd hin not_mem_nil, fun hboth => ?_⟩
    exact absurd hboth.2 Bool.false_ne_true
  · intro participant hin
    cases participant with
    | localParticipant => trivial
    | remote id =>
      obtain ⟨identity, hlookup, -⟩ := hin
      cases hlookup

/-- A step leaves the list right exactly if it leaves out nobody. -/
theorem SpeakerInv.step {told : List (List Handle)} {s s' : State α} {a : Action α}
    (hinv : SpeakerInv told s) (hstep : s.step a = some s') :
    s.LeavesOutNobody a s' ∧ SpeakerInv (told ++ s.events a) s' ∨
      ¬ s.LeavesOutNobody a s' ∧ ¬ Agrees (told ++ s.events a) s' := by
  obtain ⟨⟨hagree, htold⟩, hbounded⟩ := hinv
  cases a with
  | engineEvent event =>
    cases hstep
    have hlater := later_onEngineEvent s event
    have hiff := hlater.speakersAgree_iff hbounded hagree
    have hlist : (told ++ s.events (.engineEvent event)).getLast?.getD [] =
        (s.onEngineEvent event).activeSpeakers := by
      rw [hlater.activeSpeakers, ← htold]
      show (told ++ []).getLast?.getD [] = _
      rw [append_nil]
    by_cases hstay : s.LeavesOutNobody (.engineEvent event) (s.onEngineEvent event)
    · exact .inl ⟨hstay, ⟨hiff.mpr hstay, hlist⟩, hlater.bounded hbounded⟩
    · exact .inr ⟨hstay, fun hbad => hstay (hiff.mp hbad.1)⟩
  | speakersChanged speakersInfo =>
    cases hstep
    have hiff := speakersAgree_message s speakersInfo
    have hlist : (told ++ s.events (.speakersChanged speakersInfo)).getLast?.getD [] =
        (s.handleSpeakersChanged speakersInfo).activeSpeakers := by
      show (told ++ [_]).getLast?.getD [] = _
      rw [getLast?_concat, Option.getD_some]
    have hbounded' : (s.handleSpeakersChanged speakersInfo).Bounded := by
      have hframe := setVoices_frame s [] speakersInfo
      intro participant hin
      cases participant with
      | localParticipant => trivial
      | remote id =>
        obtain ⟨identity, hlookup, hkept⟩ := hin
        have hlookup' : (lookup identity
            (s.setVoices [] speakersInfo).1.room.remoteParticipants).isSome := hlookup
        have hkept' : (s.setVoices [] speakersInfo).1.keptUnder identity = id := hkept
        rw [hframe.1] at hlookup'
        rw [hframe.2.1] at hkept'
        show id < (s.setVoices [] speakersInfo).1.created
        rw [hframe.2.2]
        exact hbounded (.remote id) ⟨identity, hlookup', hkept'⟩
    by_cases hevery : s.HasEverySpeaker speakersInfo
    · exact .inl ⟨hevery, ⟨hiff.mpr hevery, hlist⟩, hbounded'⟩
    · exact .inr ⟨hevery, fun hbad => hevery (hiff.mp hbad.1)⟩

/-- The list and the participants agree after each event of exactly those runs in which every
message has every speaker and nobody who is speaking leaves. -/
theorem speakers_agree_iff (localParticipant : LocalParticipant) (run : List (Action α)) :
    Always step events Agrees (new localParticipant) run ↔
      EachStep step LeavesOutNobody (new localParticipant) run :=
  always_iff_eachStep (fun _ _ h => h.1) (fun _ _ _ _ h hs => h.step hs)
    (speakerInv_new localParticipant) run

/-- The local participant starts to speak, then Alice does: the second message is about her alone.
-/
def twoSpeakers : List (Action ℕ) :=
  [.engineEvent (.participantUpdate [(0, ⟨⟨"PA_1", by decide⟩, "alice", 2, "", ""⟩)]),
    .speakersChanged [⟨0, ⟨"PA_0", by decide⟩, 5, true⟩],
    .speakersChanged [⟨0, ⟨"PA_1", by decide⟩, 7, true⟩]]

/-- The list has Alice alone. -/
theorem first_speaker_dropped :
    ¬ ∀ (localParticipant : LocalParticipant) (run : List (Action ℕ)),
      Always step events Agrees (new localParticipant) run := by
  intro h
  have hrun := h ⟨⟨"PA_0", by decide⟩, "me"⟩ twoSpeakers
  have hspeaking := (hrun _ [] _ (append_nil _).symm rfl).1.speaking .localParticipant
  have hin := hspeaking.mpr ⟨trivial, rfl⟩
  revert hin
  decide

end State

end LiveKit.Room.Speakers
