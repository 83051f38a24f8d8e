import MiniCloud.Dns.Names
import MiniCloud.State.Records

/-!
# Answering queries

`handleQuery` copies the twelve bytes of the query's header, in which it has set the
flags and cleared the answer count, and then writes the four counts once more.  The
question of the response therefore starts at offset 20, and what stands at offset 12
are the counts.
-/

namespace MiniCloud.Dns

open MiniCloud.State (Base)

structure DNSRecord where
  base : Base
  ip : String
  deriving DecidableEq, Repr

structure Server where
  zoneData : AList fun _ : Bytes => List DNSRecord

/-- The functions of the standard library that a query goes through. -/
structure Lib where
  /-- `strings.ToLower` -/
  toLower : Bytes → Bytes
  /-- `net.ParseIP(s).To4()` -/
  parseIP4 : String → Option (UInt8 × UInt8 × UInt8 × UInt8)

inductive QueryError where
  | short
  | name (error : NameError)
  deriving DecidableEq, Repr

/-! ## The wire format -/

/-- `binary.BigEndian.Uint16` of the two bytes at an offset. -/
def get16 (buf : Bytes) (off : Nat) : Nat :=
  (buf.getD off 0).toNat * 256 + (buf.getD (off + 1) 0).toNat

/-- `binary.BigEndian.PutUint16`, which drops the bits above sixteen. -/
def put16 (n : Nat) : Bytes := [UInt8.ofNat (n / 256), UInt8.ofNat n]

def writeName (name : Bytes) : Bytes :=
  ((name.splitOn dot).flatMap fun label =>
    if label = [] then [] else UInt8.ofNat label.length :: label) ++ [0]

/-- The resource record for a stored record; its data is left out when the address is
not one of IPv4. -/
def answer (lib : Lib) (qname : Bytes) (r : DNSRecord) : Bytes :=
  writeName qname ++ put16 1 ++ put16 1 ++ [0, 0, 0, 60] ++ put16 4 ++
    match lib.parseIP4 r.ip with
    | none => []
    | some (a, b, c, d) => [a, b, c, d]

/-- The response, and the query's buffer, which serves as the header. -/
structure Answered where
  resp : Bytes
  buf : Bytes
  deriving DecidableEq, Repr

def handleQuery (lib : Lib) (srv : Server) (fuel : Nat) (buf : Bytes) :
    Option (Except QueryError Answered) :=
  if buf.length < 12 then some (.error .short)
  else
    match readName fuel buf 12 with
    | none => none
    | some (.error (e, _)) => some (.error (.name e))
    | some (.ok (qname, off)) =>
        if buf.length < off + 4 then some (.error .short)
        else
          let qtype := get16 buf off
          let qclass := get16 buf (off + 2)
          let buf := (((buf.set 2 0x81).set 3 0x80).set 6 0).set 7 0
          let resp := buf.take 12 ++ put16 1 ++ put16 0 ++ put16 0 ++ put16 0 ++
            writeName qname ++ put16 qtype ++ put16 qclass
          match srv.zoneData.lookup (lib.toLower qname) with
          | none => some (.ok ⟨resp, buf.set 3 0x83⟩)
          | some records =>
              if qtype ≠ 1 then some (.ok ⟨resp, buf.set 3 0x83⟩)
              else
                let out := (resp.set 6 (UInt8.ofNat (records.length / 256))).set 7
                  (UInt8.ofNat records.length)
                some (.ok ⟨out ++ records.flatMap (answer lib qname), buf⟩)

/-! ## What a response consists of -/

/-- The header of a response: the ID and the counts are those of the query, apart from
that of the answers. -/
def header (buf : Bytes) (ancount : Nat) : Bytes :=
  [buf.getD 0 0, buf.getD 1 0, 0x81, 0x80, buf.getD 4 0, buf.getD 5 0] ++ put16 ancount ++
    [buf.getD 8 0, buf.getD 9 0, buf.getD 10 0, buf.getD 11 0]

/-- The records that answer a question. -/
def recordsFor (lib : Lib) (srv : Server) (qname : Bytes) (qtype : Nat) : List DNSRecord :=
  if qtype = 1 then (srv.zoneData.lookup (lib.toLower qname)).getD [] else []

theorem header_eq {buf : Bytes} (long : 12 ≤ buf.length) :
    ((((buf.set 2 0x81).set 3 0x80).set 6 0).set 7 0).take 12 = header buf 0 := by
  match buf, long with
  | b0 :: b1 :: b2 :: b3 :: b4 :: b5 :: b6 :: b7 :: b8 :: b9 :: b10 :: b11 :: tail, _ => rfl

/-- The counts that are written after the header. -/
def counts : Bytes := put16 1 ++ put16 0 ++ put16 0 ++ put16 0

/-- The response to a question with the name `qname`, which is followed by `off`. -/
def responseTo (lib : Lib) (srv : Server) (buf qname : Bytes) (off : Nat) : Bytes :=
  let records := recordsFor lib srv qname (get16 buf off)
  header buf records.length ++ counts ++
    (writeName qname ++ put16 (get16 buf off) ++ put16 (get16 buf (off + 2)) ++
      records.flatMap (answer lib qname))

theorem set_ancount (buf rest : Bytes) (n : Nat) :
    ((header buf 0 ++ rest).set 6 (UInt8.ofNat (n / 256))).set 7 (UInt8.ofNat n) =
      header buf n ++ rest := rfl

/-- What a query has to be in order to be accepted, and its response. -/
theorem handleQuery_ok {lib : Lib} {srv : Server} {fuel : Nat} {buf : Bytes} {answered : Answered}
    (accepted : handleQuery lib srv fuel buf = some (.ok answered)) :
    ∃ qname off, readName fuel buf 12 = some (.ok (qname, off)) ∧ off + 4 ≤ buf.length ∧
      answered.resp = responseTo lib srv buf qname off := by
  unfold handleQuery at accepted
  split at accepted
  · cases accepted
  · rename_i long
    have twelve : 12 ≤ buf.length := by omega
    split at accepted
    · cases accepted
    · cases accepted
    · rename_i qname off read
      split at accepted
      · cases accepted
      · rename_i fits
        refine ⟨qname, off, read, by omega, ?_⟩
        simp only [header_eq twelve] at accepted
        unfold responseTo recordsFor counts
        cases found : srv.zoneData.lookup (lib.toLower qname) with
        | none =>
            simp only [found] at accepted
            cases accepted
            simp only [Option.getD_none, ite_self, List.length_nil, List.flatMap_nil,
              List.append_assoc, List.append_nil]
        | some records =>
            simp only [found, List.append_assoc, set_ancount] at accepted
            split at accepted
            · rename_i other
              cases accepted
              simp only [if_neg other, List.length_nil, List.flatMap_nil, List.append_assoc,
                List.append_nil]
            · rename_i isA
              cases accepted
              simp only [if_pos (not_not.mp isA), Option.getD_some, List.append_assoc]

/-! ## Questions -/

/-- The labels of the name at an offset, and the offset behind it. -/
inductive Decodes (buf : Bytes) : Nat → List Bytes → Nat → Prop where
  | root {off : Nat} (root : item buf off = .root) : Decodes buf off [] (off + 1)
  | pointer {off ptr next : Nat} {labels : List Bytes} (pointer : item buf off = .pointer ptr)
      (target : Decodes buf ptr labels next) : Decodes buf off labels (off + 2)
  | label {off next : Nat} {bytes : Bytes} {labels : List Bytes}
      (label : item buf off = .label bytes)
      (rest : Decodes buf (off + 1 + bytes.length) labels next) :
      Decodes buf off (bytes :: labels) next

/-- A name is read in one way only. -/
theorem Decodes.unique {buf : Bytes} {off next next' : Nat} {labels labels' : List Bytes}
    (decodes : Decodes buf off labels next) (decodes' : Decodes buf off labels' next') :
    labels = labels' ∧ next = next' := by
  induction decodes generalizing labels' next' with
  | root root =>
      cases decodes' with
      | root _ => exact ⟨rfl, rfl⟩
      | pointer pointer _ =>
          rw [root] at pointer
          cases pointer
      | label label _ =>
          rw [root] at label
          cases label
  | pointer pointer target ih =>
      cases decodes' with
      | root root =>
          rw [pointer] at root
          cases root
      | pointer other target' =>
          rw [pointer] at other
          cases other
          exact ⟨(ih target').1, rfl⟩
      | label label _ =>
          rw [pointer] at label
          cases label
  | label label rest ih =>
      cases decodes' with
      | root root =>
          rw [label] at root
          cases root
      | pointer pointer _ =>
          rw [label] at pointer
          cases pointer
      | label other rest' =>
          rw [label] at other
          cases other
          obtain ⟨rfl, rfl⟩ := ih rest'
          exact ⟨rfl, rfl⟩

theorem Decodes.lt {buf : Bytes} {off next : Nat} {labels : List Bytes}
    (decodes : Decodes buf off labels next) : off < next := by
  induction decodes with
  | root _ => omega
  | pointer _ _ _ => omega
  | label _ _ ih => omega

/-- The labels that `writeName` writes for a name. -/
def labelsOf (name : Bytes) : List Bytes := (name.splitOn dot).filter fun label => label != []

theorem labelsOf_join (labels : List Bytes) : labelsOf (join labels) = labels.flatMap labelsOf := by
  induction labels with
  | nil => rfl
  | cons first rest ih =>
      cases rest with
      | nil =>
          have single : join [first] = first := List.append_nil first
          rw [single, List.flatMap_singleton]
      | cons second rest =>
          have joined : join (first :: second :: rest) = first ++ dot :: join (second :: rest) := rfl
          rw [List.flatMap_cons, ← ih, joined, labelsOf, List.splitOn_append_cons_self,
            List.filter_append]
          rfl

/-- The name that is read has the labels that stand in the buffer, cut at the dots within
them. -/
theorem decodes_of_readNameFrom {buf : Bytes} {fuel off next : Nat} {labels : List Bytes}
    {name : Bytes} (read : readNameFrom buf fuel off labels = some (.ok (name, next))) :
    ∃ rest, Decodes buf off rest next ∧ labelsOf name = (labels ++ rest).flatMap labelsOf := by
  induction fuel generalizing off labels name next with
  | zero => cases read
  | succ fuel ih =>
      rw [readNameFrom] at read
      cases found : item buf off with
      | outside =>
          rw [found] at read
          cases read
      | root =>
          rw [found] at read
          cases read
          refine ⟨[], .root found, ?_⟩
          rw [labelsOf_join, List.append_nil]
      | cut =>
          rw [found] at read
          cases read
      | long =>
          rw [found] at read
          cases read
      | pointer ptr =>
          rw [found] at read
          cases sub : readNameFrom buf fuel ptr [] with
          | none =>
              simp only [sub] at read
              cases read
          | some named =>
              cases named with
              | error failed =>
                  simp only [sub] at read
                  cases read
              | ok target =>
                  simp only [sub] at read
                  cases read
                  obtain ⟨rest, decodes, pieces⟩ := ih sub
                  refine ⟨rest, .pointer found decodes, ?_⟩
                  rw [labelsOf_join, List.flatMap_append, List.flatMap_singleton, pieces,
                    List.nil_append, List.flatMap_append]
      | label bytes =>
          rw [found] at read
          obtain ⟨rest, decodes, pieces⟩ := ih read
          refine ⟨bytes :: rest, .label found decodes, ?_⟩
          rw [pieces, List.append_assoc, List.singleton_append]

/-- A question at an offset, and the offset behind it. -/
def Asks (buf : Bytes) (off : Nat) (labels : List Bytes) (qtype qclass stop : Nat) : Prop :=
  ∃ next, Decodes buf off labels next ∧ stop = next + 4 ∧ stop ≤ buf.length ∧
    get16 buf next = qtype ∧ get16 buf (next + 2) = qclass

/-- A number of resource records that stand between two offsets. -/
inductive Records (buf : Bytes) : Nat → Nat → Nat → Prop where
  | none {off : Nat} : Records buf off 0 off
  | record {off next n stop : Nat} {labels : List Bytes} (name : Decodes buf off labels next)
      (fits : next + 10 + get16 buf (next + 8) ≤ buf.length)
      (rest : Records buf (next + 10 + get16 buf (next + 8)) n stop) :
      Records buf off (n + 1) stop

theorem Records.le {buf : Bytes} {off n stop : Nat} (records : Records buf off n stop) :
    off ≤ stop := by
  induction records with
  | none => exact Nat.le_refl _
  | record name _ _ ih =>
      have named := name.lt
      omega

/-- A record takes eleven bytes or more. -/
theorem Records.eleven_le {buf : Bytes} {off n stop : Nat} (records : Records buf off n stop)
    (more : off < stop) : off + 11 ≤ stop := by
  cases records with
  | none => omega
  | record name _ rest =>
      have named := name.lt
      have behind := rest.le
      omega

/-- The response has the ID of the query and is marked as a response.  Behind the
header it consists of one question, that of the query, and of records up to the end, and
the counts in the header are those of the questions and of the authority and additional
records. -/
structure WellFormedAnswer (query resp : Bytes) : Prop where
  id : get16 resp 0 = get16 query 0
  response : 0x80 ≤ (resp.getD 2 0).toNat
  sections : ∃ labels qtype qclass asked stop answers authority additional,
    Asks query 12 labels qtype qclass asked ∧ Asks resp 12 labels qtype qclass stop ∧
      Records resp stop (answers + authority + additional) resp.length ∧
      get16 resp 8 = authority ∧ get16 resp 10 = additional
  qdcount : get16 resp 4 = 1

section Response

variable (lib : Lib) (srv : Server) (buf qname : Bytes) (off : Nat)

theorem response_bit : 0x80 ≤ ((responseTo lib srv buf qname off).getD 2 0).toNat := by
  have flags : (responseTo lib srv buf qname off).getD 2 0 = 0x81 := rfl
  rw [flags]
  decide

theorem get16_qdcount : get16 (responseTo lib srv buf qname off) 13 = 256 := by
  have high : (responseTo lib srv buf qname off).getD 13 0 = 1 := rfl
  have low : (responseTo lib srv buf qname off).getD 14 0 = 0 := rfl
  rw [get16, high, low]
  rfl

/-- At offset 12 a reader finds the counts: the root, type 256 and class 0. -/
theorem asks_responseTo {labels : List Bytes} {qtype qclass stop : Nat}
    (asks : Asks (responseTo lib srv buf qname off) 12 labels qtype qclass stop) :
    labels = [] ∧ qtype = 256 ∧ stop = 17 := by
  obtain ⟨next, decodes, isStop, _, isType, _⟩ := asks
  have root : item (responseTo lib srv buf qname off) 12 = .root := rfl
  obtain ⟨rfl, rfl⟩ := decodes.unique (.root root)
  exact ⟨rfl, isType.symm.trans (get16_qdcount lib srv buf qname off), isStop⟩

variable {qname} {off}

theorem writeName_of_labelsOf (none : labelsOf qname = []) : writeName qname = [0] := by
  have empty : ∀ label ∈ qname.splitOn dot, label = [] := by
    simpa [labelsOf] using none
  rw [writeName, List.flatMap_eq_nil_iff.mpr fun label listed => if_pos (empty label listed)]
  rfl

/-- The response to a question for the root with a type that has no records ends eight
bytes after the place where a reader takes the question to end. -/
theorem length_responseTo (none : labelsOf qname = []) (noAddress : get16 buf off ≠ 1) :
    (responseTo lib srv buf qname off).length = 25 := by
  unfold responseTo recordsFor
  rw [if_neg noAddress, writeName_of_labelsOf none]
  rfl

end Response

/-- The response to an accepted query has its ID and the response bit, but it never is a
well-formed answer: where the question should be, the counts stand once more. -/
theorem answer_never_wellFormed {lib : Lib} {srv : Server} {fuel : Nat} {buf : Bytes}
    {answered : Answered} (accepted : handleQuery lib srv fuel buf = some (.ok answered)) :
    get16 answered.resp 0 = get16 buf 0 ∧ 0x80 ≤ (answered.resp.getD 2 0).toNat ∧
      (∃ labels qtype qclass asked, Asks buf 12 labels qtype qclass asked) ∧
      ¬ WellFormedAnswer buf answered.resp := by
  obtain ⟨qname, off, read, fits, isResp⟩ := handleQuery_ok accepted
  obtain ⟨labels, decodes, pieces⟩ := decodes_of_readNameFrom read
  rw [isResp]
  refine ⟨rfl, response_bit lib srv buf qname off,
    ⟨labels, _, _, _, off, decodes, rfl, fits, rfl, rfl⟩, ?_⟩
  intro wellFormed
  obtain ⟨_, _, _, _, _, _, _, _, ⟨next, asked, _, _, isType, _⟩, answers, records, _⟩ :=
    wellFormed.sections
  -- the question that is found is the root with type 256, so this is what was asked
  obtain ⟨rfl, rfl, rfl⟩ := asks_responseTo lib srv buf qname off answers
  obtain ⟨rfl, rfl⟩ := decodes.unique asked
  have noAddress : get16 buf off ≠ 1 := by
    rw [isType]
    decide
  have length := length_responseTo lib srv buf pieces noAddress
  -- and the question that was written behind it is too short for a record
  rw [length] at records
  have room := records.eleven_le (by decide)
  omega

/-- The library functions for names in lower case and one address. -/
def plainLib : Lib where
  toLower := fun name => name
  parseIP4 := fun ip => if ip = "10.0.0.1" then some (10, 0, 0, 1) else none

/-- The zone has the address 10.0.0.1 for the name `a`. -/
def oneName : Server := ⟨AList.singleton [97] [⟨⟨"a.p", "p", "a"⟩, "10.0.0.1"⟩]⟩

/-- A query with the ID 7 and one question. -/
def queryOf (question : Bytes) : Bytes := [0, 7, 1, 0, 0, 1, 0, 0, 0, 0, 0, 0] ++ question

/-- Also for the question that the counts read as, there are bytes behind it. -/
theorem answer_malformed_for_root :
    ∃ answered, handleQuery plainLib oneName 1 (queryOf [0, 1, 0, 0, 0]) = some (.ok answered) ∧
      answered.resp.drop 12 = [0, 1, 0, 0, 0] ++ [0, 0, 0, 0, 1, 0, 0, 0] ∧
      ¬ WellFormedAnswer (queryOf [0, 1, 0, 0, 0]) answered.resp := by
  have accepted : handleQuery plainLib oneName 1 (queryOf [0, 1, 0, 0, 0]) =
      some (.ok ⟨[0, 7, 0x81, 0x80, 0, 1, 0, 0, 0, 0, 0, 0, 0, 1, 0, 0, 0, 0, 0, 0,
        0, 1, 0, 0, 0], [0, 7, 0x81, 0x83, 0, 1, 0, 0, 0, 0, 0, 0, 0, 1, 0, 0, 0]⟩) := by
    decide +kernel
  exact ⟨_, accepted, by decide, (answer_never_wellFormed accepted).2.2.2⟩

/-- A query for the address of `a`. -/
def queryA : Bytes := queryOf [1, 97, 0, 0, 1, 0, 1]

theorem queryA_accepted :
    handleQuery plainLib oneName 2 queryA =
      some (.ok ⟨[0, 7, 0x81, 0x80, 0, 1, 0, 1, 0, 0, 0, 0, 0, 1, 0, 0, 0, 0, 0, 0,
        1, 97, 0, 0, 1, 0, 1, 1, 97, 0, 0, 1, 0, 1, 0, 0, 0, 60, 0, 4, 10, 0, 0, 1],
        [0, 7, 0x81, 0x80, 0, 1, 0, 0, 0, 0, 0, 0, 1, 97, 0, 0, 1, 0, 1]⟩) := by
  decide +kernel

/-- The response to `queryA` has the question at offset 20; what a reader finds at
offset 12 is the root with type 256. -/
theorem answer_misplaced_for_name :
    ∃ answered, handleQuery plainLib oneName 2 queryA = some (.ok answered) ∧
      answered.resp = [0, 7, 0x81, 0x80, 0, 1, 0, 1, 0, 0, 0, 0, 0, 1, 0, 0, 0, 0, 0, 0,
        1, 97, 0, 0, 1, 0, 1, 1, 97, 0, 0, 1, 0, 1, 0, 0, 0, 60, 0, 4, 10, 0, 0, 1] ∧
      Asks queryA 12 [[97]] 1 1 19 ∧ Asks answered.resp 12 [] 256 0 17 ∧
      ¬ WellFormedAnswer queryA answered.resp := by
  have accepted := queryA_accepted
  have first : item queryA 12 = .label [97] := by decide
  have second : item queryA 14 = .root := by decide
  refine ⟨_, accepted, rfl, ⟨15, .label first (.root second), rfl, by decide, by decide, by decide⟩,
    ⟨13, .root (by decide), rfl, by decide, by decide, by decide⟩, ?_⟩
  intro wellFormed
  obtain ⟨_, _, _, _, _, _, _, _, ⟨_, asked, _⟩, answers, _⟩ := wellFormed.sections
  obtain ⟨qname, off, _, _, isResp⟩ := handleQuery_ok accepted
  rw [isResp] at answers
  obtain ⟨rfl, _⟩ := asks_responseTo plainLib oneName queryA qname off answers
  cases asked with
  | root root =>
      rw [first] at root
      cases root
  | pointer pointer _ =>
      rw [first] at pointer
      cases pointer

end MiniCloud.Dns
