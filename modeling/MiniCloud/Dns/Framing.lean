import MiniCloud.Dns.AnswerSection

/-!
# Framing over TCP

A connection carries one query and its response, each behind its length in two bytes.
The length of a response is cut to sixteen bits when it is written, and nothing bounds
the response itself: every record of a name is in it, with the whole name.
-/

namespace MiniCloud.Dns

/-- The body that the length in front of it announces. -/
def bodyOf (input : Bytes) : Bytes := (input.drop 2).take (get16 input 0)

/-- What the goroutine of `serveTCP` writes on a connection that delivers these bytes before
it ends; `none` is a name that is read without end. -/
def serveTCP (lib : Lib) (srv : Server) (fuel : Nat) (input : Bytes) : Option Bytes :=
  if input.length < 2 then some []
  else if (bodyOf input).length < get16 input 0 then some []
  else
    match handleQuery lib srv fuel (bodyOf input) with
    | none => none
    | some (.error _) => some []
    | some (.ok answered) => some (put16 answered.resp.length ++ answered.resp)

/-- The length of a name on the wire: the bytes of its labels, one for each label, and the
root. -/
def nameLength (name : Bytes) : Nat := (labelsOf name).flatten.length + (labelsOf name).length + 1

/-- The length of a response: twelve bytes of header, eight of counts, the question, and for
each record its name, ten bytes and, if it has one, an address. -/
def responseLength (lib : Lib) (qname : Bytes) (records : List DNSRecord) : Nat :=
  24 + nameLength qname + records.length * (nameLength qname + 10) +
    4 * (addresses lib records).length

theorem encode_length (labels : List Bytes) :
    (encode labels).length = labels.flatten.length + labels.length + 1 := by
  induction labels with
  | nil => rfl
  | cons label rest ih =>
      rw [encode_cons, List.length_cons, List.length_append, ih, List.flatten_cons,
        List.length_append, List.length_cons]
      omega

theorem responseTo_length (lib : Lib) (srv : Server) (buf qname : Bytes) (off : Nat) :
    (responseTo lib srv buf qname off).length =
      responseLength lib qname (recordsFor lib srv qname (get16 buf off)) := by
  have name : (encode (labelsOf qname)).length = nameLength qname := encode_length _
  rw [responseTo_eq, List.length_append, front_length, answers_length, writeName_eq, name,
    responseLength]
  omega

/-- Something is written only as the response to an accepted query, behind its length. -/
theorem serveTCP_answers {lib : Lib} {srv : Server} {fuel : Nat} {input out : Bytes}
    (served : serveTCP lib srv fuel input = some out) (answers : out ≠ []) :
    ∃ answered, handleQuery lib srv fuel (bodyOf input) = some (.ok answered) ∧
      out = put16 answered.resp.length ++ answered.resp := by
  unfold serveTCP at served
  split at served
  · cases served
    exact absurd rfl answers
  · split at served
    · cases served
      exact absurd rfl answers
    · split at served
      · cases served
      · cases served
        exact absurd rfl answers
      · rename_i answered accepted
        cases served
        exact ⟨answered, accepted, rfl⟩

/-- The length in front of a response is right exactly if the response is not too long for
it. -/
theorem framed_iff {lib : Lib} {srv : Server} {fuel : Nat} {input out : Bytes}
    (served : serveTCP lib srv fuel input = some out) (answers : out ≠ []) :
    ∃ qname off, readName fuel (bodyOf input) 12 = some (.ok (qname, off)) ∧
      (get16 out 0 = (out.drop 2).length ↔
        responseLength lib qname (recordsFor lib srv qname (get16 (bodyOf input) off)) < 65536) := by
  obtain ⟨answered, accepted, rfl⟩ := serveTCP_answers served answers
  obtain ⟨qname, off, read, _, isResp⟩ := handleQuery_ok accepted
  refine ⟨qname, off, read, ?_⟩
  have behind : (put16 answered.resp.length ++ answered.resp).drop 2 = answered.resp := rfl
  rw [get16_put16, behind, isResp, responseTo_length]
  exact Nat.mod_eq_iff_lt (by decide)

/-- A query is accepted if its name can be read and a question fits behind it. -/
theorem handleQuery_accepts {lib : Lib} {fuel off : Nat} {buf qname : Bytes}
    (long : 12 ≤ buf.length) (read : readName fuel buf 12 = some (.ok (qname, off)))
    (fits : off + 4 ≤ buf.length) (srv : Server) :
    ∃ answered, handleQuery lib srv fuel buf = some (.ok answered) := by
  rw [handleQuery, if_neg (Nat.not_lt.mpr long), read]
  simp only [if_neg (Nat.not_lt.mpr fits)]
  cases srv.zoneData.lookup (lib.toLower qname) with
  | none => exact ⟨_, rfl⟩
  | some records =>
      simp only
      split
      · exact ⟨_, rfl⟩
      · exact ⟨_, rfl⟩

/-- A connection on which `queryA` arrives. -/
def inputA : Bytes := put16 19 ++ queryA

theorem framed_for_name :
    ∃ out, serveTCP plainLib oneName 2 inputA = some out ∧ get16 out 0 = (out.drop 2).length := by
  have served : serveTCP plainLib oneName 2 inputA = some (put16 44 ++
      [0, 7, 0x81, 0x80, 0, 1, 0, 1, 0, 0, 0, 0, 0, 1, 0, 0, 0, 0, 0, 0,
        1, 97, 0, 0, 1, 0, 1, 1, 97, 0, 0, 1, 0, 1, 0, 0, 0, 60, 0, 4, 10, 0, 0, 1]) := by
    decide +kernel
  obtain ⟨qname, off, read, framed⟩ := framed_iff served (by decide)
  have isRead : readName 2 (bodyOf inputA) 12 = some (.ok ([97], 15)) := by decide
  rw [isRead] at read
  obtain ⟨rfl, rfl⟩ := Prod.mk.inj (Except.ok.inj (Option.some.inj read))
  exact ⟨_, served, framed.mpr (by decide +kernel)⟩

/-- The zone has 4000 addresses for the name `a`. -/
def manyRecords : Server :=
  ⟨AList.singleton [97] (List.replicate 4000 ⟨⟨"a.p", "p", "a"⟩, "10.0.0.1"⟩)⟩

/-- Their response has 68027 bytes, and 2491 are announced. -/
theorem framed_wrong_for_many :
    ∃ out, serveTCP plainLib manyRecords 2 inputA = some out ∧ (out.drop 2).length = 68027 ∧
      get16 out 0 = 2491 := by
  have read : readName 2 queryA 12 = some (.ok ([97], 15)) := by decide
  have body : bodyOf inputA = queryA := by decide
  obtain ⟨answered, accepted⟩ : ∃ answered,
      handleQuery plainLib manyRecords 2 queryA = some (.ok answered) :=
    handleQuery_accepts (by decide) read (by decide) manyRecords
  obtain ⟨qname, off, read', _, isResp⟩ := handleQuery_ok accepted
  rw [read] at read'
  obtain ⟨rfl, rfl⟩ := Prod.mk.inj (Except.ok.inj (Option.some.inj read'))
  have records : recordsFor plainLib manyRecords [97] (get16 queryA 15) =
      List.replicate 4000 ⟨⟨"a.p", "p", "a"⟩, "10.0.0.1"⟩ := by
    have isA : get16 queryA 15 = 1 := by decide
    have found : manyRecords.zoneData.lookup (plainLib.toLower [97]) =
        some (List.replicate 4000 ⟨⟨"a.p", "p", "a"⟩, "10.0.0.1"⟩) := rfl
    rw [recordsFor, if_pos isA, found, Option.getD_some]
  have length : answered.resp.length = 68027 := by
    have name : nameLength [97] = 3 := by decide
    have all : (addresses plainLib (List.replicate 4000 ⟨⟨"a.p", "p", "a"⟩, "10.0.0.1"⟩)).length =
        (List.replicate 4000 (⟨⟨"a.p", "p", "a"⟩, "10.0.0.1"⟩ : DNSRecord)).length := by
      refine addresses_length_iff.mpr fun r listed => ?_
      rw [List.eq_of_mem_replicate listed]
      rfl
    rw [isResp, responseTo_length, records, responseLength, all, List.length_replicate, name]
  refine ⟨put16 answered.resp.length ++ answered.resp, ?_, length, ?_⟩
  · rw [serveTCP, if_neg (by decide), if_neg (by decide), body, accepted]
  · rw [get16_put16, length]

end MiniCloud.Dns
