import DockerDns.Guarantees.ReverseNames
import DockerDns.Source.Listener
import DockerDns.Source.Reference

/-!
# Static records are answered exactly and symmetrically

The intercept map represents the relation between names and data that the list
of records spells, in both directions. Its answers follow from that relation,
so neither the order nor the repetition of records matters.
-/
namespace DockerDns.Guarantees
open Library Source

/-- The data the list gives a name: the addresses of the records of that name and
the names of the records whose address reverses to it. -/
def Listed (hk : Hickory) (records : List RawRecord) (qname : LowerName) (r : RData) : Prop :=
  ∃ record ∈ records, (qname = LowerName.new record.name ∧ r = RData.ofIp record.addr) ∨
    (qname = LowerName.new (hk.nameOfIp record.addr) ∧ r = (RData.ptr record.name).lower)

/-- Two data compared as the library does. -/
def Response.Answers (response : Response) (r : RData) : Prop :=
  ∃ answers, response = .answers answers ∧ r.lower ∈ answers.map fun answer => answer.data.lower

/-- Two responses come from the same place and give the same data. -/
def SameAnswers (response response' : Response) : Prop :=
  (response = .catalog ↔ response' = .catalog) ∧
    ∀ r, Response.Answers response r ↔ Response.Answers response' r

section Map
variable {hk : Hickory} {hasher : Hasher}

theorem hash_agrees (ignores : hasher.IgnoresCase) :
    HashAgrees HashedRData.norm (HashedRData.hash hasher) := by
  intro x y same
  obtain ⟨x⟩ := x
  obtain ⟨y⟩ := y
  unfold HashedRData.norm at same
  cases x <;> cases y <;> simp only [RData.lower, reduceCtorEq, RData.a.injEq, RData.aaaa.injEq,
    RData.ptr.injEq] at same
  next a b => rw [same]
  next a b => rw [same]
  next a b => exact congrArg some (ignores .ptr a b same)
  next => rfl

theorem addIntercept_represents (ignores : hasher.IgnoresCase) {map : Intercepts}
    {pairs : LowerName → RData → Prop} (represents : Represents HashedRData.norm map pairs)
    (record : RawRecord) :
    Represents HashedRData.norm (DnsRequestHandler.addIntercept hk hasher map record)
      fun qname r => pairs qname r ∨
        (qname = LowerName.new record.name ∧ r = RData.ofIp record.addr) ∨
        (qname = LowerName.new (hk.nameOfIp record.addr) ∧ r = (RData.ptr record.name).lower) := by
  have agrees := hash_agrees ignores
  have forward := insertPair_represents agrees represents (LowerName.new record.name)
    ⟨RData.ofIp record.addr⟩
  have reverse := insertPair_represents agrees forward (LowerName.new (hk.nameOfIp record.addr))
    ⟨.ptr record.name⟩
  apply reverse.congr
  intro qname r
  simp only [HashedRData.norm, RData.lower_ofIp, or_assoc]

theorem new_represents (hk : Hickory) (ignores : hasher.IgnoresCase) (records : List RawRecord) :
    Represents HashedRData.norm (DnsRequestHandler.new hk hasher records).intercepts
      (Listed hk records) := by
  have loop : ∀ (map : Intercepts) (pairs : LowerName → RData → Prop),
      Represents HashedRData.norm map pairs →
      Represents HashedRData.norm
        (records.foldl (DnsRequestHandler.addIntercept hk hasher) map)
        fun qname r => pairs qname r ∨ Listed hk records qname r := by
    induction records with
    | nil =>
      intro map pairs represents
      apply represents.congr
      intro qname r
      simp [Listed]
    | cons record rest ih =>
      intro map pairs represents
      apply (ih _ _ (addIntercept_represents ignores represents record)).congr
      intro qname r
      simp only [Listed, List.exists_mem_cons_iff, or_assoc]
  apply (loop ∅ _ represents_empty).congr
  intro qname r
  exact (false_or _).symm.to_iff

end Map

section Handler
variable {hk : Hickory} {hasher : Hasher} {records : List RawRecord}

/-- What a handler answers, in terms of the relation its map represents. -/
theorem handleRequest_cases (hk : Hickory) (records : List RawRecord)
    (ignores : hasher.IgnoresCase) (order : SetOrder) (qname : LowerName)
    (qtype : RecordType) :
    ((DnsRequestHandler.new hk hasher records).handleRequest order (some (qname, qtype)) =
        .catalog ∧ ∀ r, ¬ Listed hk records qname r) ∨
      ∃ answers, (DnsRequestHandler.new hk hasher records).handleRequest order
          (some (qname, qtype)) = .answers answers ∧
        (∃ r, Listed hk records qname r) ∧ (∀ answer ∈ answers, answer.name = qname.name) ∧
        (answers.map fun answer => answer.data.lower).Nodup ∧
        ∀ r, r ∈ answers.map (fun answer => answer.data.lower) ↔
          Listed hk records qname r ∧ (qtype = r.recordType ∨ qtype = .any) := by
  unfold DnsRequestHandler.handleRequest
  rcases new_represents hk ignores records qname with
    ⟨vacant, none⟩ | ⟨set, found, nonempty, distinct, members⟩
  · left
    simp only [vacant]
    exact ⟨trivial, none⟩
  · right
    simp only [found]
    obtain ⟨first, member⟩ := List.exists_mem_of_ne_nil set nonempty
    have perm := order.elements_perm set
    refine ⟨_, rfl, ⟨_, (members _).mp (List.mem_map_of_mem member)⟩, ?_, ?_, ?_⟩
    · intro answer inside
      obtain ⟨r, _, rfl⟩ := List.mem_map.mp inside
      rfl
    · rw [List.map_map]
      have ordered : ((order.elements set).map HashedRData.norm).Nodup :=
        (perm.map _).nodup_iff.mpr distinct
      exact ordered.sublist (List.filter_sublist.map _)
    · intro r
      rw [List.map_map, ← members r]
      simp only [List.mem_map, List.mem_filter, perm.mem_iff, Bool.or_eq_true, decide_eq_true_eq]
      constructor
      · intro answered
        obtain ⟨element, ⟨inside, asked⟩, rfl⟩ := answered
        refine ⟨⟨element, inside, rfl⟩, ?_⟩
        show qtype = element.data.lower.recordType ∨ _
        rwa [RData.lower_recordType]
      · intro listed
        obtain ⟨⟨element, inside, rfl⟩, asked⟩ := listed
        refine ⟨element, ⟨inside, ?_⟩, rfl⟩
        change qtype = element.data.lower.recordType ∨ _ at asked
        rwa [RData.lower_recordType] at asked

/-- A datum is answered when it is listed and its type is asked for. -/
theorem answers_iff (ignores : hasher.IgnoresCase) (order : SetOrder) (qname : LowerName)
    (qtype : RecordType) (r : RData) :
    Response.Answers ((DnsRequestHandler.new hk hasher records).handleRequest order
        (some (qname, qtype))) r ↔
      Listed hk records qname r.lower ∧ (qtype = r.recordType ∨ qtype = .any) := by
  rcases handleRequest_cases hk records ignores order qname qtype with
    ⟨catalog, none⟩ | ⟨answers, answered, _, _, _, members⟩
  · rw [catalog]
    refine iff_of_false ?_ fun both => none _ both.1
    intro answered
    obtain ⟨answers, same, _⟩ := answered
    cases same
  · rw [answered, ← RData.lower_recordType r, ← members r.lower]
    constructor
    · intro answered
      obtain ⟨_, same, member⟩ := answered
      cases same
      exact member
    · exact fun member => ⟨answers, rfl, member⟩

/-- A name goes to the catalog when nothing is listed for it. -/
theorem catalog_iff (ignores : hasher.IgnoresCase) (order : SetOrder) (qname : LowerName)
    (qtype : RecordType) :
    (DnsRequestHandler.new hk hasher records).handleRequest order (some (qname, qtype)) =
      .catalog ↔ ∀ r, ¬ Listed hk records qname r := by
  rcases handleRequest_cases hk records ignores order qname qtype with
    ⟨catalog, none⟩ | ⟨answers, answered, ⟨r, listed⟩, _⟩
  · exact iff_of_true catalog none
  · rw [answered]
    exact iff_of_false nofun fun none => none r listed

/-- Nothing listed reaches the unreachable arm of the hash. -/
theorem listed_hashed {qname : LowerName} {r : HashedRData}
    (listed : Listed hk records qname r.norm) : (r.hash hasher).isSome := by
  obtain ⟨data⟩ := r
  cases data with
  | a | aaaa | ptr => rfl
  | soa =>
    obtain ⟨record, _, ⟨_, same⟩ | ⟨_, same⟩⟩ := listed
    · have types := RData.recordType_ofIp record.addr
      rw [← same] at types
      rcases types with isA | isAaaa
      · cases isA
      · cases isAaaa
    · cases same

theorem listed_iff_record (qname : LowerName) : (∃ r, Listed hk records qname r) ↔
    ∃ record ∈ records, qname = LowerName.new record.name ∨
      qname = LowerName.new (hk.nameOfIp record.addr) := by
  constructor
  · intro listed
    obtain ⟨r, record, member, ⟨named, _⟩ | ⟨named, _⟩⟩ := listed
    · exact ⟨record, member, .inl named⟩
    · exact ⟨record, member, .inr named⟩
  · intro listed
    obtain ⟨record, member, named | named⟩ := listed
    · exact ⟨_, record, member, .inl ⟨named, rfl⟩⟩
    · exact ⟨_, record, member, .inr ⟨named, rfl⟩⟩

theorem listed_address (n : LowerName) (ip : IpAddr) :
    Listed hk records n (RData.ofIp ip) ↔
      ∃ record ∈ records, n = LowerName.new record.name ∧ ip = record.addr := by
  refine exists_congr fun record => and_congr_right fun _ => ?_
  have notPointer : RData.ofIp ip ≠ (RData.ptr record.name).lower := by cases ip <;> nofun
  simp [notPointer]

theorem listed_pointer (names : hk.NameLaws) (n : LowerName) (ip : IpAddr) :
    Listed hk records (LowerName.new (hk.nameOfIp ip)) (RData.ptr n.name).lower ↔
      ∃ record ∈ records, n = LowerName.new record.name ∧ ip = record.addr := by
  refine exists_congr fun record => and_congr_right fun _ => ?_
  have notAddress : (RData.ptr n.name).lower ≠ RData.ofIp record.addr := by
    cases record.addr <;> nofun
  have reversed : LowerName.new (hk.nameOfIp ip) = LowerName.new (hk.nameOfIp record.addr) ↔
      ip = record.addr := by
    rw [names.nameOfIp, names.nameOfIp]
    exact ⟨standardReverseName_inj, fun same => by rw [same]⟩
  have named : (RData.ptr n.name).lower = (RData.ptr record.name).lower ↔
      n = LowerName.new record.name := by
    simp only [RData.lower, RData.ptr.injEq]
    rw [← LowerName.new_eq_iff, LowerName.new_name]
  rw [reversed, named]
  constructor
  · intro either
    rcases either with ⟨_, same⟩ | ⟨same, sameName⟩
    · exact absurd same notAddress
    · exact ⟨sameName, same⟩
  · exact fun both => .inr both.symm

theorem listed_congr {records' : List RawRecord}
    (same : ∀ record, record ∈ records' ↔ record ∈ records) (qname : LowerName) (r : RData) :
    Listed hk records' qname r ↔ Listed hk records qname r :=
  exists_congr fun record => and_congr_left fun _ => same record

end Handler

/-- The answers of a handler built from a list of records. -/
structure StaticAnswers (hk : Hickory) (hasher : Hasher) (records : List RawRecord) : Prop where
  hashed : ∀ qname set, (DnsRequestHandler.new hk hasher records).intercepts.lookup qname =
    some set → ∀ r ∈ set, (r.hash hasher).isSome
  intercepted : ∀ order qname qtype,
    (DnsRequestHandler.new hk hasher records).handleRequest order (some (qname, qtype)) ≠
        .catalog ↔
      ∃ record ∈ records, qname = LowerName.new record.name ∨
        qname = LowerName.new (hk.nameOfIp record.addr)
  exact : ∀ order qname qtype answers,
    (DnsRequestHandler.new hk hasher records).handleRequest order (some (qname, qtype)) =
      .answers answers →
    (∀ answer ∈ answers, answer.name = qname.name) ∧
    (answers.map fun answer => answer.data.lower).Nodup ∧
    ∀ r, r ∈ answers.map (fun answer => answer.data.lower) ↔
      Listed hk records qname r ∧ (qtype = r.recordType ∨ qtype = .any)
  symmetric : ∀ order order' (n : LowerName) (ip : IpAddr),
    Response.Answers ((DnsRequestHandler.new hk hasher records).handleRequest order
        (some (n, (RData.ofIp ip).recordType))) (RData.ofIp ip) ↔
      Response.Answers ((DnsRequestHandler.new hk hasher records).handleRequest order'
        (some (LowerName.new (hk.nameOfIp ip), .ptr))) (.ptr n.name)
  unordered : ∀ records', (∀ record, record ∈ records' ↔ record ∈ records) →
    ∀ order order' query,
      SameAnswers ((DnsRequestHandler.new hk hasher records').handleRequest order query)
        ((DnsRequestHandler.new hk hasher records).handleRequest order' query)

/-- Every list of static records is answered exactly and symmetrically. -/
theorem static_records_exact {hk : Hickory} {hasher : Hasher} (names : hk.NameLaws)
    (ignores : hasher.IgnoresCase) (records : List RawRecord) :
    StaticAnswers hk hasher records := by
  constructor
  · intro qname set found r member
    rcases new_represents hk ignores records qname with
      ⟨vacant, _⟩ | ⟨set', found', _, _, members⟩
    · rw [vacant] at found
      cases found
    · cases found.symm.trans found'
      exact listed_hashed ((members _).mp (List.mem_map_of_mem member))
  · intro order qname qtype
    rw [← listed_iff_record, Ne, catalog_iff ignores, not_forall_not]
  · intro order qname qtype answers answered
    rcases handleRequest_cases hk records ignores order qname qtype with
      ⟨catalog, _⟩ | ⟨answers', answered', _, exact⟩
    · rw [catalog] at answered
      cases answered
    · cases answered'.symm.trans answered
      exact exact
  · intro order order' n ip
    rw [answers_iff ignores, answers_iff ignores, RData.lower_ofIp, listed_address,
      listed_pointer names]
    simp
  · intro records' same order order' query
    cases query with
    | none => exact ⟨Iff.rfl, fun _ => Iff.rfl⟩
    | some query =>
      obtain ⟨qname, qtype⟩ := query
      constructor
      · rw [catalog_iff ignores, catalog_iff ignores]
        simp only [listed_congr same]
      · intro r
        rw [answers_iff ignores, answers_iff ignores, listed_congr same]

section Runs
open Reference

/-- Two spellings of one name, one of them listed twice with different addresses. -/
theorem static_records_exact_variants : StaticAnswers hickory hasher
    [⟨name ["Web", "lan"], .v4 0x0a000001#32⟩, ⟨name ["web", "lan"], .v4 0x0a000001#32⟩,
      ⟨name ["web", "lan"], .v6 1#128⟩] :=
  static_records_exact hickory_nameLaws hasher_ignoresCase _

end Runs
end DockerDns.Guarantees
