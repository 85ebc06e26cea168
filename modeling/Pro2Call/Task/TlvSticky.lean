import Pro2Call.Task.TlvForest

namespace Pro2Call.Task

open Pro2Call.Data

/-! Writers that drop the return codes of single writes and look at the
overflow flag once, at the end. -/

def Holds (w : TlvWbuf) (done : List UInt8) : Prop := w.overflow = true ∨ Written w done

theorem Holds.written {w : TlvWbuf} {done : List UInt8} (holds : Holds w done)
    (clear : w.overflow = false) : Written w done := by
  rcases holds with flagged | written
  · simp [clear] at flagged
  · exact written

theorem Holds.reserve {w : TlvWbuf} {done : List UInt8} (holds : Holds w done)
    (bytes : List UInt8) :
    (∃ w' rc, tlvWbufReserve w bytes.length = (w', some rc) ∧ w'.overflow = true) ∨
      tlvWbufReserve w bytes.length = (w, none) ∧ Written
          { w with
            buf := splice w.buf w.off bytes
            off := w.off + bytes.length } (done ++ bytes) := by
  rcases tlvWbufReserve_cases w bytes.length with
    ⟨flagged, refused⟩ | ⟨_, _, refused⟩ | ⟨clear, room, reserved⟩
  · exact .inl ⟨w, tlvEOverflow, refused, flagged⟩
  · exact .inl ⟨_, tlvEOverflow, refused, rfl⟩
  · have written := holds.written clear
    obtain ⟨tail, buf⟩ := written.held
    refine .inr ⟨reserved, ?_⟩
    have extended := written.extend room buf
    rwa [← splice_append_length done tail bytes, ← buf, ← written.off] at extended

structure HoldsIn (cap : Nat) (w : TlvWbuf) (done : List UInt8) : Prop where
  cap : w.cap = cap
  holds : Holds w done

variable {format : TlvFormat} {cap : Nat} {w : TlvWbuf} {done : List UInt8}

theorem HoldsIn.put (held : HoldsIn cap w done) (type : Nat) (metaOctet : UInt8) {val : List UInt8}
    (fits : format.prof.hdrLen + val.length ≤ tlvLenMax format.prof.lenSize) :
    HoldsIn cap (tlvPut w format.prof type metaOctet val).1
      (done ++ tlvFrame format.prof type metaOctet val) := by
  have small := format.lenMax_lt
  have inside : ¬ (tlvPutLength format.prof val.length < val.length ∨
      tlvPutLength format.prof val.length > tlvLenMax format.prof.lenSize) := by
    unfold tlvPutLength
    split <;> omega
  rcases tlvWbufReserve_cases w (tlvAlign format.prof.align (format.prof.hdrLen + val.length)) with
    ⟨flagged, refused⟩ | ⟨_, _, refused⟩ | ⟨clear, _, reserved⟩
  · rw [tlvPut_of_refused type metaOctet inside refused]
    exact ⟨held.cap, .inl flagged⟩
  · rw [tlvPut_of_refused type metaOctet inside refused]
    exact ⟨held.cap, .inl rfl⟩
  · have accepted := tlvPut_of_reserved type metaOctet inside reserved
    have written := ((held.holds.written clear).put accepted).1
    rw [accepted]
    exact ⟨held.cap, .inr written⟩

theorem HoldsIn.of_flagged (held : HoldsIn cap w done) (flagged : w.overflow = true)
    (p : TlvProf) (handle : Int) (after : List UInt8) :
    HoldsIn cap (tlvEnd w p handle).1 after := by
  have kept : (tlvEnd w p handle).1 = w := by simp [tlvEnd, flagged]
  rw [kept]
  exact ⟨held.cap, .inl flagged⟩

theorem HoldsIn.finish {type : Nat} {body : List UInt8} (held : HoldsIn cap w
      (done ++ tlvHeaderBytes format.prof type none metaOctet ++ body))
    (small : done.length < 2 ^ 31)
    (fits : format.prof.hdrLen + body.length ≤ tlvLenMax format.prof.lenSize) :
    HoldsIn cap (tlvEnd w format.prof (toInt done.length)).1
      (done ++ tlvFrame format.prof type metaOctet body) := by
  rcases held.holds with flagged | written
  · exact held.of_flagged flagged _ _ _
  · have off := written.off
    simp only [List.length_append, format.length_headerBytes] at off
    have handle := toInt_of_small small
    have opened : EntryOpen w format.prof (toInt done.length) := by
      refine ⟨written.clear, ?_, ?_⟩ <;> rw [handle] <;> omega
    have inRange : tlvEndLength w format.prof (toInt done.length).toNat ≤
        tlvLenMax format.prof.lenSize := by
      rw [handle]
      unfold tlvEndLength
      split <;> omega
    have closed := tlvEnd_of_in_range opened inRange
    dsimp only at closed
    split at closed
    · rw [closed]
      exact ⟨held.cap, .inr (written.finish closed).1⟩
    · split at closed
      · rename_i refused
        rw [closed]
        rcases tlvWbufReserve_cases _ _ with ⟨flagged, same⟩ | ⟨_, _, same⟩ | ⟨_, _, same⟩
        all_goals rw [same] at refused; cases refused
        · exact ⟨held.cap, .inl flagged⟩
        · exact ⟨held.cap, .inl rfl⟩
      · rename_i reserved
        rw [closed]
        rcases tlvWbufReserve_cases _ _ with ⟨_, same⟩ | ⟨_, _, same⟩ | ⟨_, _, same⟩
        all_goals rw [same] at reserved; cases reserved
        exact ⟨held.cap, .inr (written.finish closed).1⟩

theorem HoldsIn.begin (held : HoldsIn cap w done) (type : Nat) (metaOctet : UInt8)
    (small : done.length < 2 ^ 31) :
    HoldsIn cap (tlvBegin w format.prof type metaOctet).1
        (done ++ tlvHeaderBytes format.prof type none metaOctet) ∧
      ((tlvBegin w format.prof type metaOctet).1.overflow = true ∨
        (tlvBegin w format.prof type metaOctet).2 = toInt done.length) := by
  rcases tlvWbufReserve_cases w format.prof.hdrLen with
    ⟨flagged, refused⟩ | ⟨_, _, refused⟩ | ⟨clear, _, reserved⟩
  · rw [tlvBegin_of_refused type metaOctet refused]
    exact ⟨⟨held.cap, .inl flagged⟩, .inl flagged⟩
  · rw [tlvBegin_of_refused type metaOctet refused]
    exact ⟨⟨held.cap, .inl rfl⟩, .inl rfl⟩
  · have opened := tlvBegin_of_reserved type metaOctet reserved
    have written := held.holds.written clear
    have start : ¬ toInt w.off < 0 := by
      rw [written.off, toInt_of_small small]
      omega
    obtain ⟨header, handle⟩ := written.begin opened start
    rw [opened]
    exact ⟨⟨held.cap, .inr header⟩, .inr handle⟩

theorem HoldsIn.group (held : HoldsIn cap w done) (type : Nat) (metaOctet : UInt8)
    {fill : TlvWbuf → TlvWbuf} {body : List UInt8} (small : done.length < 2 ^ 31)
    (fits : format.prof.hdrLen + body.length ≤ tlvLenMax format.prof.lenSize)
    (fills : ∀ {w done}, HoldsIn cap w done → HoldsIn cap (fill w) (done ++ body)) :
    HoldsIn cap (tlvEnd (fill (tlvBegin w format.prof type metaOctet).1) format.prof
        (tlvBegin w format.prof type metaOctet).2).1
      (done ++ tlvFrame format.prof type metaOctet body) := by
  obtain ⟨begun, flagged | handle⟩ := @HoldsIn.begin format _ _ _ held type metaOctet small
  · -- What holds whatever was written before can only be the overflow flag.
    have first := @fills _ [] ⟨begun.cap, .inl flagged⟩
    have second := @fills _ [0] ⟨begun.cap, .inl flagged⟩
    have still : (fill (tlvBegin w format.prof type metaOctet).1).overflow = true := by
      rcases first.holds with flag | short
      · exact flag
      rcases second.holds with flag | long
      · exact flag
      have offs := short.off.symm.trans long.off
      simp at offs
    exact first.of_flagged still _ _ _
  · rw [handle]
    exact (fills begun).finish small fits

end Pro2Call.Task
