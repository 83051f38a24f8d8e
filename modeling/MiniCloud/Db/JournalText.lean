import MiniCloud.Db.Transitions
import MiniCloud.Library.JsonText

/-!
# The bytes of the journal

`append` writes the JSON text of an entry and a newline; `recover` hands the
file to a `json.Decoder`, which skips white space, reads one value after the
other, and reports `io.EOF` only when the input ends between two values.  The
decoding loop is written for every format of entries that a decoder can cut off
and read back, and the format of the source, the JSON object with the fields
`i`, `t`, `o`, `k`, `v` and `vr`, is one of them.

The line-by-line journal of `MiniCloud.Db.Raft` is what this decoder sees: whole
lines, and a last one that a crash has cut off.
-/

namespace MiniCloud.Db

open MiniCloud.Library
open MiniCloud.Library.Codec
open MiniCloud.Library.JsonText (ascii)

/-! ## The JSON object of an entry -/

namespace LogEntry

def opCodec : Codec UInt8 LogOp :=
  (either (literal (ascii "put")) (literal (ascii "del")) (fun b => b == 112)
    (fun _ => ⟨112, _, rfl, rfl⟩) fun _ => ⟨100, _, rfl, rfl⟩).map
    (fun | .put => .inl () | .del => .inr ())
    (fun | .inl _ => some .put | .inr _ => some .del)
    fun op => by cases op <;> rfl

/-- The last number of the object, with its closing brace. -/
def versionCodec : Codec UInt8 Nat := JsonText.number 125 rfl

/-- The value and the version behind `"v`; an empty value is left out. -/
def valueCodec : Codec UInt8 (Bytes × Nat) :=
  (either
    (after (ascii "\":\"") (pair JsonText.byteString (after (ascii ",\"vr\":") versionCodec)))
    (after (ascii "r\":") versionCodec) (fun b => b == 34)
    (fun _ => ⟨34, _, rfl, rfl⟩) fun _ => ⟨114, _, rfl, rfl⟩).map
    (fun v => if v.1 = [] then .inr v.2 else .inl v)
    (fun | .inl v => some v | .inr version => some ([], version))
    fun v => by
      obtain ⟨value, version⟩ := v
      by_cases empty : value = []
      · simp [empty]
      · simp [empty]

/-- The text of `json.Marshal` on a `logEntry`, read back with the fields in the
order in which they are written. -/
def marshal : Codec UInt8 LogEntry :=
  (after (ascii "\x7b\"i\":") (pair (JsonText.number 44 rfl)
    (after (ascii "\"t\":") (pair (JsonText.number 44 rfl)
      (after (ascii "\"o\":\"") (pair opCodec
        (after (ascii "\",\"k\":\"") (pair JsonText.string
          (after (ascii ",\"v") valueCodec))))))))).map
    (fun e => (e.index, e.term, e.op, e.key, e.value, e.version))
    (fun (index, term, op, key, value, version) => some ⟨index, term, op, key, value, version⟩)
    fun _ => rfl

example : marshal.encode ⟨2, 1, .put, "a/<b>", [1, 2], 7⟩ =
    ascii "\x7b\"i\":2,\"t\":1,\"o\":\"put\",\"k\":\"a/\\u003cb\\u003e\",\"v\":\"AQI=\",\"vr\":7\x7d" := by
  decide +kernel

example : marshal.encode ⟨3, 1, .del, "a", [], 0⟩ =
    ascii "\x7b\"i\":3,\"t\":1,\"o\":\"del\",\"k\":\"a\",\"vr\":0\x7d" := by
  decide +kernel

end LogEntry

/-! ## The decoding loop -/

/-- White space between JSON values. -/
def isSpace (b : UInt8) : Bool := b == 32 || b == 9 || b == 10 || b == 13

def newline : UInt8 := 10

/-- A format of entries that a decoder can read back and that begins with a
visible symbol. -/
structure JournalFormat extends Codec UInt8 LogEntry where
  begins : toCodec.Begins fun b => !isSpace b

namespace JournalFormat

def json : JournalFormat where
  toCodec := LogEntry.marshal
  begins _ := ⟨123, _, rfl, rfl⟩

variable (format : JournalFormat)

/-- What `append` writes. -/
def line (e : LogEntry) : Bytes := format.encode e ++ [newline]

def lines (entries : List LogEntry) : Bytes := entries.flatMap format.line

/-- The error that ends the loop; `io.EOF` is none. -/
def failureOf : Ending → Option DecodeError
  | .clean => none
  | .cut => some .unexpectedEOF
  | .malformed => some .invalidCharacter

/-- The calls of `dec.Decode` up to the first error. -/
def decodeAll (bytes : Bytes) : JournalStream :=
  ⟨(format.readStream isSpace bytes).1, failureOf (format.readStream isSpace bytes).2⟩

/-- What a crash has left of a line, as a line of the journal. -/
def cutLine (e : LogEntry) (part : Bytes) : List JournalLine :=
  if part = [] then [] else if part = format.encode e then [.whole e] else [.torn e]

variable {format}

/-- A proper part of a line is empty, the text without its newline, or a proper
part of the text. -/
theorem part_of_line {e : LogEntry} {part missing : Bytes}
    (split : format.line e = part ++ missing) (cut : missing ≠ []) :
    part = format.encode e ∨ ∃ left, left ≠ [] ∧ format.encode e = part ++ left := by
  rcases part_cases split with ⟨read, reached, rest⟩ | unfinished
  · cases read with
    | nil =>
        rw [List.append_nil] at reached
        exact .inl reached
    | cons b read =>
        have empty : read ++ missing = [] := (List.cons.inj rest).2.symm
        exact absurd (List.append_eq_nil_iff.mp empty).2 cut
  · exact .inr unfinished

theorem encode_ne_nil (e : LogEntry) : format.encode e ≠ [] := by
  obtain ⟨b, rest, written, _⟩ := format.begins e
  rw [written]
  exact List.cons_ne_nil b rest

theorem readJournal_append (entries : List LogEntry) (last : List JournalLine) :
    readJournal (entries.map .whole ++ last) =
      ⟨entries ++ (readJournal last).entries, (readJournal last).failure⟩ := by
  induction entries with
  | nil => rfl
  | cons e entries ih => simp [readJournal, ih]

/-- The decoder sees the journal line by line, whatever byte a crash stopped at. -/
theorem decodeAll_eq_readJournal {entries : List LogEntry} {e : LogEntry}
    {part missing : Bytes} (split : format.line e = part ++ missing) (cut : missing ≠ []) :
    format.decodeAll (format.lines entries ++ part) =
      readJournal (entries.map .whole ++ format.cutLine e part) := by
  obtain ⟨fuel, enough, read⟩ := readStream_lines format.begins newline rfl
    entries part
  have stream : format.readStream isSpace (format.lines entries ++ part) =
      (entries ++ (format.readAll isSpace fuel part).1,
        (format.readAll isSpace fuel part).2) := read
  obtain ⟨fuel, rfl⟩ := Nat.exists_eq_succ_of_ne_zero
    (Nat.ne_of_gt (Nat.lt_of_le_of_lt (Nat.zero_le _) enough))
  rw [readJournal_append, decodeAll, stream]
  rcases part_of_line split cut with whole | ⟨left, unread, front⟩
  · obtain ⟨spare, rfl⟩ : ∃ spare, fuel = spare + 1 := by
      have written : 0 < part.length := by
        rw [whole]
        exact List.length_pos_of_ne_nil (encode_ne_nil e)
      exact Nat.exists_eq_succ_of_ne_zero (by omega)
    have last := readAll_value format.begins (spare + 1) e []
    rw [List.append_nil] at last
    have finished : cutLine format e part = [.whole e] := by
      rw [cutLine, whole, if_neg (encode_ne_nil e), if_pos rfl]
    rw [finished, whole, last]
    rfl
  · by_cases nothing : part = []
    · subst nothing
      rfl
    · have torn := readAll_part format.begins fuel front nothing unread
      have unfinished : part ≠ format.encode e := by
        intro whole
        rw [← whole] at front
        exact unread (List.self_eq_append_right.mp front)
      rw [cutLine, if_neg nothing, if_neg unfinished, torn]
      rfl

end JournalFormat

end MiniCloud.Db
