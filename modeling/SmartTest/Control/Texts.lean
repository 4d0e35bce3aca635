import SmartTest.Control.RequestFile

/-!
# One request file

The request file that the service and the supervisor share is the one `RequestFile` spells
out: under its texts the same characters are written, and the same request is read.
-/

open SmartTest.Lib SmartTest.Run

namespace SmartTest.Control.RequestFile

/-- The id with its text. -/
def RequestId.uuid (id : RequestId) : UUID := ⟨.ofList id.text⟩

theorem RequestId.spelled (id : RequestId) : id.uuid.Spelled := ⟨id.value, id.lt, rfl⟩

/-- The time in UTC that an instant is, counted from the beginning of the year 1. -/
def ofInstant (t : Int) : Option DateTime :=
  if h : 0 ≤ t ∧ t < 3652059 * 86400000000 then some ⟨t.toNat, by omega⟩ else none

theorem ofInstant_micros (time : DateTime) : ofInstant time.micros = some time := by
  obtain ⟨micros, hrange⟩ := time
  simp only [ofInstant]
  rw [dif_pos ⟨by omega, by omega⟩]
  rfl

theorem micros_ofInstant {t : Int} {time : DateTime} (h : ofInstant t = some time) : (time.micros : Int) = t := by
  unfold ofInstant at h
  split at h
  · next hrange =>
    cases h
    exact Int.toNat_of_nonneg hrange.1
  · cases h

/-- The texts that requests are written and read with. -/
def Library.codec (lib : Library) : Codec where
  floatText := lib.floatText
  readFloat := lib.readFloat
  readUuid text := (readUuid lib text.toList).map RequestId.uuid
  inCalendar t := (ofInstant t).isSome
  isoformat t := (ofInstant t).elim "" fun time => .ofList time.isoformat
  fromisoformat text := (fromisoformat lib text.toList).map fun (shown, offset) => ⟨shown.micros, offset⟩

def RestartRequest.control (request : RestartRequest) : ControlRequest where
  target := request.target
  requestId := request.requestId.uuid
  requestedAt := request.requestedAt.micros
  notBefore := request.notBefore.micros

variable {lib : Library}

theorem isoformat_codec (time : DateTime) : lib.codec.isoformat time.micros = .ofList time.isoformat := by
  simp [Library.codec, ofInstant_micros]

theorem codec_faithful : lib.codec.Faithful where
  uuid := by
    rintro ⟨text⟩ ⟨value, hlt, rfl⟩
    have hread := readUuid_text lib ⟨value, hlt⟩
    simp only [Library.codec, String.toList_ofList]
    rw [show uuidText value = RequestId.text ⟨value, hlt⟩ from rfl, hread]
    rfl
  time t ht := by
    obtain ⟨time, htime⟩ := Option.isSome_iff_exists.mp ht
    rw [← micros_ofInstant htime, isoformat_codec]
    simp [Library.codec, replaceZ, replaceZ_isoformat, fromisoformat_isoformat]

/-! ## The same file -/

theorem encoded_control (request : RestartRequest) : request.control.encoded lib.codec = request.encoded lib := by
  simp only [ControlRequest.encoded, ControlRequest.payload, RestartRequest.control, isoformat_codec]
  rfl

/-- A timestamp that can be told in UTC is read the same. -/
theorem parseTimestamp_codec {value : Option Json} {found : Option DateTime}
    (h : parseTimestamp lib value = .ok found) :
    value.bind (Control.parseTimestamp lib.codec) = found.map fun time => (time.micros : Instant) := by
  unfold parseTimestamp at h
  split at h
  · next text =>
    simp only [Option.bind_some, Control.parseTimestamp, Library.codec, replaceZ, String.toList_ofList]
    split at h
    · next shown offset hread =>
      rw [hread]
      cases hutc : inUtc shown offset with
      | error e =>
        rw [hutc] at h
        cases h
      | ok time =>
        rw [hutc] at h
        cases h
        have hmicros := plus_ok_iff.mp hutc
        simp [hmicros, Int.sub_eq_add_neg]
    · next hnone =>
      cases h
      cases hread : fromisoformat lib (text.toList.flatMap fun c =>
          if c = 'Z' then ['+', '0', '0', ':', '0', '0'] else [c]) with
      | none => rfl
      | some found =>
        obtain ⟨shown, offset⟩ := found
        cases offset with
        | none => rfl
        | some offset => cases hnone shown offset hread
  · next hother =>
    cases h
    cases value with
    | none => rfl
    | some value =>
      cases value with
      | str text => cases hother text rfl
      | null | bool | int | float | arr | obj => rfl

theorem uuid_text_eq_iff {id : RequestId} {text : String} : id.uuid.text = text ↔ id.text = text.toList := by
  constructor
  · rintro rfl
    exact String.toList_ofList.symm
  · intro h
    rw [RequestId.uuid, h, String.ofList_toList]

/-- The times of a request and their distance. -/
theorem times_codec {target : ServiceTarget} {requestId : RequestId} {requestedAt notBefore : Option Json}
    {found : Option RestartRequest}
    (h : (do
      let requestedAt ← parseTimestamp lib requestedAt
      let notBefore ← parseTimestamp lib notBefore
      match requestedAt, notBefore with
      | some requestedAt, some notBefore =>
        if (notBefore.micros : Int) - requestedAt.micros ≠ RESTART_DELAY_SECONDS * 1000000 then .ok none
        else .ok (some ⟨target, requestId, requestedAt, notBefore⟩)
      | _, _ => .ok none : Except Failure (Option RestartRequest)) = .ok found) :
    (do
      let requestedAt ← requestedAt.bind (Control.parseTimestamp lib.codec)
      let notBefore ← notBefore.bind (Control.parseTimestamp lib.codec)
      if notBefore - requestedAt ≠ RESTART_DELAY_SECONDS * 1000000 then none
      return (⟨target, requestId.uuid, requestedAt, notBefore⟩ : ControlRequest)) =
      found.map RestartRequest.control := by
  obtain ⟨requested, hrequested, h⟩ := (bind_eq_ok_iff _ _ _).mp h
  obtain ⟨before, hbefore, h⟩ := (bind_eq_ok_iff _ _ _).mp h
  rw [parseTimestamp_codec hrequested, parseTimestamp_codec hbefore]
  split at h
  · next requested before =>
    simp only [Option.map_some, Option.bind_eq_bind, Option.bind_some]
    split at h
    · next hdelay =>
      cases h
      rw [if_pos hdelay]
      rfl
    · next hdelay =>
      cases h
      rw [if_neg hdelay]
      rfl
  · next hother =>
    cases h
    cases requested with
    | none => rfl
    | some requested =>
      cases before with
      | none => rfl
      | some before => cases hother requested before rfl rfl

/-- The supervisor reads the same request, from every file whose times can be told in UTC. -/
theorem parseControlRequest_codec {file : Option (List Char)} {found : Option RestartRequest}
    (h : parseControlRequest lib file = .ok found) :
    Control.parseControlRequest lib.codec file = found.map RestartRequest.control := by
  have hobject : readObject lib.codec file = readPayload lib file := rfl
  unfold parseControlRequest at h
  unfold Control.parseControlRequest
  rw [hobject]
  split at h
  · next hnone =>
    cases h
    rw [hnone]
    rfl
  · next payload hpayload =>
    rw [hpayload]
    simp only [Option.bind_eq_bind, Option.bind_some]
    split at h
    · next hkeys =>
      cases h
      rw [if_pos hkeys]
      rfl
    · next hkeys =>
      rw [if_neg hkeys]
      split at h
      · next hversion =>
        cases h
        rw [if_pos hversion]
        rfl
      · next hversion =>
        rw [if_neg hversion]
        split at h
        · next targetText requestIdText htarget hid =>
          rw [htarget, hid]
          have huuid : lib.codec.readUuid requestIdText = (readUuid lib requestIdText.toList).map RequestId.uuid := rfl
          dsimp only
          rw [huuid]
          split at h
          · next target requestId hvalue hread =>
            rw [hvalue, hread]
            simp only [Option.bind_some, Option.map_some]
            split at h
            · next htext =>
              cases h
              rw [if_pos (uuid_text_eq_iff.not.mpr htext)]
              rfl
            · next htext =>
              rw [if_neg (uuid_text_eq_iff.not.not.mpr htext)]
              exact times_codec h
          · next hother =>
            cases h
            cases hvalue : ServiceTarget.ofValue targetText with
            | none => rfl
            | some target =>
              cases hread : readUuid lib requestIdText.toList with
              | none => rfl
              | some requestId => cases hother target requestId hvalue hread
        · next hother =>
          cases h
          split
          · next targetText htarget =>
            cases ServiceTarget.ofValue targetText with
            | none => rfl
            | some target =>
              rw [Option.bind_some]
              split
              · next requestIdText hid => cases hother targetText requestIdText htarget hid
              · rfl
          · rfl

end SmartTest.Control.RequestFile
