import ComposeBastion.Docker.CreateCommand

namespace ComposeBastion

open Js

/-!
# The ports of a standalone clone

`portsFromInspect` of `services/recoveryManifest.ts` keeps a published port as one string, which
the create command takes apart again.

* `InspectedPort` — a port of `docker inspect` with its bindings;
* `PublishSyntax` — what a `-p` value means to Docker;
* `publishValue_binding` — the value a binding comes back as;
* `clone_ports_iff` — the bindings are kept exactly when all of them are published without an
  address, or beside such a binding of the same ports.
-/

/-! ### Capture -/

/-- A binding as `docker inspect` prints it. -/
structure PortBinding where
  hostIp : Option String
  hostPort : Option String
  deriving DecidableEq, Repr

/-- `containerPort.split("/")`, of which two parts are used, or the port with `tcp`. -/
def splitPortKey (containerPort : String) : List Char × List Char :=
  let cs := containerPort.toList
  if cs.contains '/' then
    (cs.takeWhile (· ≠ '/'), ((cs.dropWhile (· ≠ '/')).drop 1).takeWhile (· ≠ '/'))
  else (cs, "tcp".toList)

/-- The entry of one binding. -/
def portEntry (containerPort : String) (binding : PortBinding) : PortManifest :=
  let (rawContainer, rawProtocol) := splitPortKey containerPort
  { host :=
      if truthy binding.hostPort then
        some ((if truthy binding.hostIp ∧ binding.hostIp ≠ some "0.0.0.0"
          then "[" ++ binding.hostIp.getD "" ++ "]" else "") ++ binding.hostPort.getD "")
      else none
    container := if rawContainer = [] then containerPort else String.ofList rawContainer
    protocol := if rawProtocol = [] then "tcp" else String.ofList rawProtocol }

/-- `portsFromInspect`, of the entries of `NetworkSettings.Ports`. -/
def portsFromInspect (ports : Option (List (String × Option (List PortBinding)))) :
    List PortManifest :=
  (ports.getD []).flatMap fun (containerPort, bindings) =>
    (bindings.getD []).map (portEntry containerPort)

/-! ### Ports of a container -/

/-- The decimal numeral of a port. -/
def IsPort (text : String) : Prop :=
  ∃ port : ℕ, 0 < port ∧ port < 65536 ∧ text = String.ofList (Nat.toDigits 10 port)

/-- A character of an address. -/
def isAddressChar (c : Char) : Bool :=
  c.isDigit || ('a' ≤ c && c ≤ 'f') || ('A' ≤ c && c ≤ 'F') || c = '.' || c = ':'

/-- A port of a container and its bindings, none of which need have a host port yet. -/
structure InspectedPort where
  container : String
  protocol : String
  bindings : Option (List PortBinding)
  isPort_container : IsPort container
  mem_protocol : protocol ∈ ["tcp", "udp", "sctp"]
  isPort_hostPort : ∀ binding ∈ bindings.getD [], truthy binding.hostPort = true →
    IsPort (binding.hostPort.getD "")
  isAddress_hostIp : ∀ binding ∈ bindings.getD [],
    ∀ c ∈ (binding.hostIp.getD "").toList, isAddressChar c = true

/-- The entry of `NetworkSettings.Ports`. -/
def InspectedPort.entry (port : InspectedPort) : String × Option (List PortBinding) :=
  (port.container ++ "/" ++ port.protocol, port.bindings)

/-- A port of the host at one address that leads to a port of the container. -/
structure PublishedBinding where
  address : String
  hostPort : String
  container : String
  protocol : String
  deriving DecidableEq, Repr

/-- What a port is bound to when it is published without an address: every IPv4 and every IPv6
    address of the host. -/
def allAddresses : List String := ["0.0.0.0", "::"]

/-- The addresses of a binding. -/
def PortBinding.addresses (binding : PortBinding) : List String :=
  if truthy binding.hostIp then [binding.hostIp.getD ""] else allAddresses

/-- The published bindings of a port. -/
def InspectedPort.published (port : InspectedPort) : List PublishedBinding :=
  ((port.bindings.getD []).filter fun binding => truthy binding.hostPort).flatMap fun binding =>
    binding.addresses.map fun address =>
      ⟨address, binding.hostPort.getD "", port.container, port.protocol⟩

/-! ### `-p` -/

/-- The values of `-p` as Docker reads them: `hostPort:containerPort/protocol` is published on
    `0.0.0.0` and on `[::]`, and with a `:` in it the value has a host port, digits or a range of
    them, between its last two `:`. -/
structure PublishSyntax where
  read : String → Option (List PublishedBinding)
  read_all : ∀ host container protocol : String, IsPort host → IsPort container →
    protocol ∈ ["tcp", "udp", "sctp"] →
    read (host ++ ":" ++ container ++ "/" ++ protocol) =
      some (allAddresses.map fun address => ⟨address, host, container, protocol⟩)
  host_digits : ∀ value : String, (read value).isSome = true → ':' ∈ value.toList →
    ∃ front host container, value.toList = front ++ host ++ ':' :: container ∧
      (front = [] ∨ ∃ address, front = address ++ [':']) ∧
      (∀ c ∈ host, c.isDigit = true ∨ c = '-') ∧ ':' ∉ container

/-- The values of the `-p` options of a command line. -/
def publishFlags (command : String) : List String :=
  match shellWords command with
  | some ("docker" :: "create" :: arguments) =>
    match parseArguments arguments with
    | some request => flagValues .publish request.options
    | none => []
  | _ => []

/-- Docker accepts the values, and they are the published bindings. -/
def PortsKept (docker : PublishSyntax) (ports : List InspectedPort) (values : List String) :
    Prop :=
  (∀ value ∈ values, (docker.read value).isSome = true) ∧
    ∀ binding, (∃ value ∈ values, ∃ read, docker.read value = some read ∧ binding ∈ read) ↔
      ∃ port ∈ ports, binding ∈ port.published

/-! ### What a binding comes back as -/

theorem isPort_digits {text : String} (h : IsPort text) :
    text.toList ≠ [] ∧ ∀ c ∈ text.toList, c.isDigit = true := by
  obtain ⟨port, -, -, rfl⟩ := h
  rw [String.toList_ofList]
  exact ⟨Nat.toDigits_ne_nil, fun c hc => Nat.isDigit_of_mem_toDigits (by decide) (by decide) hc⟩

theorem isPort_notMem {text : String} (h : IsPort text) {c : Char} (hc : c.isDigit = false) :
    c ∉ text.toList := by
  intro hmem
  rw [(isPort_digits h).2 c hmem] at hc
  cases hc

theorem isPort_ne_empty {text : String} (h : IsPort text) : text ≠ "" := by
  rintro rfl
  exact (isPort_digits h).1 rfl

theorem mem_protocol_chars {protocol : String} (h : protocol ∈ ["tcp", "udp", "sctp"]) :
    '/' ∉ protocol.toList ∧ ':' ∉ protocol.toList ∧ protocol ≠ "" := by
  rcases List.mem_cons.mp h with rfl | h
  · decide
  · rcases List.mem_cons.mp h with rfl | h
    · decide
    · obtain rfl := List.mem_singleton.mp h
      decide

theorem splitPortKey_entry (port : InspectedPort) :
    splitPortKey port.entry.1 = (port.container.toList, port.protocol.toList) := by
  have hfront : ∀ c ∈ port.container.toList, (decide (c ≠ '/')) = true := by
    intro c hc
    rw [decide_eq_true_eq]
    rintro rfl
    exact isPort_notMem port.isPort_container (by decide) hc
  have hback : ∀ c ∈ port.protocol.toList, (decide (c ≠ '/')) = true := by
    intro c hc
    rw [decide_eq_true_eq]
    rintro rfl
    exact (mem_protocol_chars port.mem_protocol).1 hc
  have hkey : port.entry.1.toList = port.container.toList ++ '/' :: port.protocol.toList := by
    show (port.container ++ "/" ++ port.protocol).toList = _
    rw [String.toList_append, String.toList_append, List.append_assoc]
    rfl
  rw [splitPortKey, hkey, if_pos (by simp), List.takeWhile_append_of_pos hfront,
    List.dropWhile_append_of_pos hfront, List.takeWhile_cons_of_neg (by decide),
    List.dropWhile_cons_of_neg (by decide), List.append_nil, List.drop_succ_cons, List.drop_zero,
    List.takeWhile_eq_self_iff.mpr hback]

theorem portEntry_entry (port : InspectedPort) (binding : PortBinding) :
    portEntry port.entry.1 binding =
      { host := if truthy binding.hostPort then
          some ((if truthy binding.hostIp ∧ binding.hostIp ≠ some "0.0.0.0"
            then "[" ++ binding.hostIp.getD "" ++ "]" else "") ++ binding.hostPort.getD "")
          else none
        container := port.container
        protocol := port.protocol } := by
  have hcontainer : port.container.toList ≠ [] := (isPort_digits port.isPort_container).1
  have hprotocol : port.protocol.toList ≠ [] := by
    simpa using (mem_protocol_chars port.mem_protocol).2.2
  simp only [portEntry, splitPortKey_entry, if_neg hcontainer, if_neg hprotocol,
    String.ofList_toList]

/-! ### The numeric port -/

theorem replaceFirstChars_self (old cs : List Char) : replaceFirstChars old old cs = cs := by
  induction cs with
  | nil => rw [replaceFirstChars]; split <;> simp_all
  | cons c cs ih =>
    rw [replaceFirstChars]
    by_cases hprefix : old.isPrefixOf (c :: cs) = true
    · rw [if_pos hprefix]
      exact (List.prefix_iff_eq_append.mp (List.isPrefixOf_iff_prefix.mp hprefix))
    · rw [if_neg hprefix, ih]

theorem dropThroughLast_notMem {c : Char} {cs : List Char} (h : c ∉ cs) :
    dropThroughLast c cs = cs := by
  refine if_neg fun hmem => h ?_
  exact (List.takeWhile_prefix _).subset (List.contains_iff_mem.mp hmem)

/-- Behind the last of a character, where no line ends. -/
theorem dropThroughLast_append {c : Char} {front back : List Char}
    (hline : ∀ d ∈ front ++ c :: back, isLineTerminator d = false) (hback : c ∉ back) :
    dropThroughLast c (front ++ c :: back) = back := by
  have hall : (front ++ c :: back).takeWhile (fun d => !isLineTerminator d) =
      front ++ c :: back := by
    rw [List.takeWhile_eq_self_iff]
    intro d hd
    rw [hline d hd]
    rfl
  have hlast : ∀ d ∈ back.reverse, (decide (d ≠ c)) = true := by
    intro d hd
    rw [decide_eq_true_eq]
    rintro rfl
    exact hback (List.mem_reverse.mp hd)
  rw [dropThroughLast, hall]
  simp only [List.contains_eq_mem, List.mem_append, List.mem_cons, true_or, or_true, decide_true,
    if_true, List.drop_length, List.append_nil]
  rw [List.reverse_append, List.reverse_cons, List.append_assoc,
    List.takeWhile_append_of_pos hlast]
  simp

/-- With no remapping a host port comes back as it is if there is a `:` in it, and as its numeric
    part if not. -/
theorem remapHostPortValue_empty {hostPort : String} (h : hostPort ≠ "") :
    remapHostPortValue hostPort .empty =
      some (if ':' ∈ hostPort.toList then hostPort else String.ofList (numericPort hostPort)) := by
  have hget : (Record.empty.get (String.ofList (numericPort hostPort))).getD
      (String.ofList (numericPort hostPort)) = String.ofList (numericPort hostPort) := rfl
  rw [remapHostPortValue, if_neg h]
  simp only [hget, List.contains_eq_mem, decide_eq_true_eq]
  by_cases hcolon : ':' ∈ hostPort.toList
  · rw [if_pos hcolon, if_pos hcolon, String.toList_ofList, replaceFirstChars_self,
      String.ofList_toList]
  · rw [if_neg hcolon, if_neg hcolon]

theorem isAddressChar_facts {c : Char} (h : isAddressChar c = true) :
    isLineTerminator c = false ∧ c ≠ ']' := by
  constructor
  · by_contra hline
    simp only [isLineTerminator, Bool.not_eq_false, Bool.or_eq_true, decide_eq_true_eq] at hline
    have hchar : c = '\n' ∨ c = '\r' ∨ c = Char.ofNat 0x2028 ∨ c = Char.ofNat 0x2029 := by
      rcases hline with ((hline | hline) | hline) | hline
      · exact .inl hline
      · exact .inr (.inl hline)
      · exact .inr (.inr (.inl (by rw [← hline, Char.ofNat_toNat])))
      · exact .inr (.inr (.inr (by rw [← hline, Char.ofNat_toNat])))
    rcases hchar with rfl | rfl | rfl | rfl
    all_goals exact absurd h (by decide)
  · rintro rfl
    exact absurd h (by decide)

theorem isDigit_isAddressChar {c : Char} (h : c.isDigit = true) : isAddressChar c = true := by
  rw [isAddressChar, h]
  rfl

/-! ### The values of `-p` -/

/-- A text is cut at its last separator in one way. -/
theorem last_separator_inj {d : Char} {left left' right right' : List Char} (hright : d ∉ right)
    (hright' : d ∉ right') (h : left ++ d :: right = left' ++ d :: right') :
    left = left' ∧ right = right' := by
  rcases List.append_eq_append_iff.mp h with ⟨middle, rfl, hmiddle⟩ | ⟨middle, rfl, hmiddle⟩
  · rcases List.cons_eq_append_iff.mp hmiddle with ⟨rfl, hrest⟩ | ⟨middle, rfl, rfl⟩
    · exact ⟨(List.append_nil _).symm, (List.cons.inj hrest).2.symm⟩
    · exact absurd (List.mem_append_right middle List.mem_cons_self) hright
  · rcases List.cons_eq_append_iff.mp hmiddle with ⟨rfl, hrest⟩ | ⟨middle, rfl, rfl⟩
    · exact ⟨List.append_nil _, (List.cons.inj hrest).2⟩
    · exact absurd (List.mem_append_right middle List.mem_cons_self) hright'

/-- The address that `portsFromInspect` keeps, in brackets. -/
def PortBinding.bracketed (binding : PortBinding) : Option String :=
  if truthy binding.hostIp ∧ binding.hostIp ≠ some "0.0.0.0" then binding.hostIp else none

theorem PortBinding.bracketed_eq_some {binding : PortBinding} {address : String}
    (h : binding.bracketed = some address) :
    (truthy binding.hostIp = true ∧ binding.hostIp ≠ some "0.0.0.0") ∧
      binding.hostIp = some address := by
  rw [PortBinding.bracketed] at h
  by_cases hsome : truthy binding.hostIp = true ∧ binding.hostIp ≠ some "0.0.0.0"
  · rw [if_pos hsome] at h
    exact ⟨hsome, h⟩
  · rw [if_neg hsome] at h
    cases h

section
variable {port : InspectedPort} {binding : PortBinding}

/-- `hostPort:containerPort/protocol`. -/
def plainValue (port : InspectedPort) (binding : PortBinding) : String :=
  binding.hostPort.getD "" ++ ":" ++ port.container ++ "/" ++ port.protocol

/-- A binding without a host port gives no option. -/
theorem publishValue_unpublished (h : ¬ truthy binding.hostPort = true) :
    publishValue? .empty (portEntry port.entry.1 binding) = none := by
  rw [publishValue?, portEntry_entry, if_neg h]
  rfl

/-- A binding without brackets comes back without an address. -/
theorem publishValue_all (hmem : binding ∈ port.bindings.getD [])
    (h : truthy binding.hostPort = true) (haddress : binding.bracketed = none) :
    publishValue? .empty (portEntry port.entry.1 binding) = some (plainValue port binding) := by
  have hport := port.isPort_hostPort binding hmem h
  have hall : ¬ (truthy binding.hostIp = true ∧ binding.hostIp ≠ some "0.0.0.0") := by
    intro hsome
    rw [PortBinding.bracketed, if_pos hsome] at haddress
    rw [haddress] at hsome
    exact absurd hsome.1 (by decide)
  have hcolon := isPort_notMem hport (c := ':') (by decide)
  have hnumeric : numericPort (binding.hostPort.getD "") = (binding.hostPort.getD "").toList := by
    have hbracket : (binding.hostPort.getD "").toList.head? ≠ some '[' := fun hhead =>
      isPort_notMem hport (by decide) (List.mem_of_head? hhead)
    rw [numericPort, if_neg hbracket, dropThroughLast_notMem hcolon]
  rw [publishValue?, portEntry_entry, if_pos h, if_neg hall, String.empty_append]
  simp only [Option.bind_some, remapHostPortValue_empty (isPort_ne_empty hport), if_neg hcolon,
    hnumeric, String.ofList_toList, if_neg (isPort_ne_empty hport)]
  rfl

/-- The entry of a binding with brackets. -/
theorem portEntry_address (h : truthy binding.hostPort = true) {address : String}
    (haddress : binding.bracketed = some address) :
    (portEntry port.entry.1 binding).host =
      some ("[" ++ address ++ "]" ++ binding.hostPort.getD "") := by
  obtain ⟨hsome, hip⟩ := PortBinding.bracketed_eq_some haddress
  rw [portEntry_entry]
  simp only [if_pos h, if_pos hsome]
  rw [hip]
  rfl

theorem toList_bracketed (address rest : String) :
    ("[" ++ address ++ "]" ++ rest).toList = ('[' :: address.toList) ++ ']' :: rest.toList := by
  simp

/-- A binding on an address without a `:` loses it. -/
theorem publishValue_dropped (hmem : binding ∈ port.bindings.getD [])
    (h : truthy binding.hostPort = true) {address : String}
    (haddress : binding.bracketed = some address) (hcolon : ':' ∉ address.toList) :
    publishValue? .empty (portEntry port.entry.1 binding) = some (plainValue port binding) := by
  have hport := port.isPort_hostPort binding hmem h
  have hchars : ∀ c ∈ address.toList, isAddressChar c = true := by
    have hall := port.isAddress_hostIp binding hmem
    rw [(PortBinding.bracketed_eq_some haddress).2] at hall
    exact hall
  have hdigits := isPort_notMem hport (c := ':') (by decide)
  have htext := toList_bracketed address (binding.hostPort.getD "")
  have hnone : ':' ∉ ("[" ++ address ++ "]" ++ binding.hostPort.getD "").toList := by
    rw [htext]
    simp [hcolon, hdigits]
  have hline : ∀ d ∈ ('[' :: address.toList) ++ ']' :: (binding.hostPort.getD "").toList,
      isLineTerminator d = false := by
    intro d hd
    simp only [List.cons_append, List.mem_cons, List.mem_append] at hd
    rcases hd with rfl | hd | rfl | hd
    · decide
    · exact (isAddressChar_facts (hchars d hd)).1
    · decide
    · exact (isAddressChar_facts (isDigit_isAddressChar ((isPort_digits hport).2 d hd))).1
  have hnumeric : numericPort ("[" ++ address ++ "]" ++ binding.hostPort.getD "") =
      (binding.hostPort.getD "").toList := by
    rw [numericPort, htext, List.cons_append, List.head?_cons, if_pos rfl, ← List.cons_append,
      dropThroughLast_append hline (isPort_notMem hport (by decide)),
      dropThroughLast_notMem hdigits]
  have hne : "[" ++ address ++ "]" ++ binding.hostPort.getD "" ≠ "" := by
    intro heq
    rw [heq] at htext
    cases htext
  rw [publishValue?, portEntry_address h haddress]
  simp only [Option.bind_some, remapHostPortValue_empty hne, if_neg hnone, hnumeric,
    String.ofList_toList, if_neg (isPort_ne_empty hport), portEntry_entry]
  rfl

/-- A binding on an address with a `:` keeps it between brackets, with no `:` behind them. -/
theorem publishValue_bracketed (h : truthy binding.hostPort = true) {address : String}
    (haddress : binding.bracketed = some address) (hcolon : ':' ∈ address.toList) :
    publishValue? .empty (portEntry port.entry.1 binding) =
      some ("[" ++ address ++ "]" ++ plainValue port binding) := by
  have htext := toList_bracketed address (binding.hostPort.getD "")
  have hmem : ':' ∈ ("[" ++ address ++ "]" ++ binding.hostPort.getD "").toList := by
    rw [htext]
    simp [hcolon]
  have hne : "[" ++ address ++ "]" ++ binding.hostPort.getD "" ≠ "" := by
    intro heq
    rw [heq] at htext
    cases htext
  rw [publishValue?, portEntry_address h haddress]
  simp only [Option.bind_some, remapHostPortValue_empty hne, if_pos hmem, if_neg hne,
    portEntry_entry]
  simp only [plainValue, String.append_assoc]

/-- No value has an address between brackets and the host port right behind it. -/
theorem read_bracketed (docker : PublishSyntax) (hmem : binding ∈ port.bindings.getD [])
    (h : truthy binding.hostPort = true) (address : String) :
    docker.read ("[" ++ address ++ "]" ++ plainValue port binding) = none := by
  have hport := port.isPort_hostPort binding hmem h
  have hdigits := isPort_notMem hport (c := ':') (by decide)
  have htext : ("[" ++ address ++ "]" ++ plainValue port binding).toList =
      (('[' :: address.toList) ++ ']' :: (binding.hostPort.getD "").toList) ++
        ':' :: (port.container.toList ++ '/' :: port.protocol.toList) := by
    rw [toList_bracketed]
    simp [plainValue]
  have htail : ':' ∉ port.container.toList ++ '/' :: port.protocol.toList := by
    simp [isPort_notMem port.isPort_container (c := ':') (by decide),
      (mem_protocol_chars port.mem_protocol).2.1]
  by_contra hsome
  obtain ⟨front, host, container, hsplit, hfront, hhost, hcontainer⟩ :=
    docker.host_digits _ (Option.isSome_iff_ne_none.mpr hsome) (by rw [htext]; simp)
  rw [htext] at hsplit
  obtain ⟨hhead, -⟩ := last_separator_inj htail hcontainer hsplit
  -- the host port of the reader ends where the brackets do, or before
  have hbracket : ']' ∉ host := by
    intro hin
    rcases hhost ']' hin with hdigit | hdash
    · exact absurd hdigit (by decide)
    · exact absurd hdash (by decide)
  rcases hfront with rfl | ⟨start, rfl⟩
  · rw [List.nil_append] at hhead
    exact hbracket (by rw [← hhead]; simp)
  · rcases List.append_eq_append_iff.mp hhead with ⟨middle, hstart, hrest⟩ | ⟨middle, -, hrest⟩
    · rcases middle with _ | ⟨c, middle⟩
      · rw [List.nil_append] at hrest
        exact hbracket (by rw [← hrest]; exact List.mem_cons_self)
      · obtain ⟨rfl, htail⟩ := List.cons.inj hrest
        have hlast := congrArg List.getLast? hstart
        rw [List.getLast?_concat, List.getLast?_append_cons] at hlast
        rcases List.mem_cons.mp (List.mem_of_getLast? hlast.symm) with heq | hin
        · exact absurd heq (by decide)
        · exact hdigits (by rw [htail]; exact List.mem_append_left _ hin)
    · exact hbracket (by rw [hrest]; simp)

end

/-! ### The set of bindings -/

/-- Every binding with a host port is published without an address, or on `0.0.0.0` beside a
    binding of the same ports without one. -/
def PublishedWithoutAddress (ports : List InspectedPort) : Prop :=
  ∀ port ∈ ports, ∀ binding ∈ port.bindings.getD [], truthy binding.hostPort = true →
    ¬ truthy binding.hostIp = true ∨ binding.hostIp = some "0.0.0.0" ∧
      ∃ port' ∈ ports, ∃ binding' ∈ port'.bindings.getD [], ¬ truthy binding'.hostIp = true ∧
        binding'.hostPort = binding.hostPort ∧ port'.container = port.container ∧
        port'.protocol = port.protocol

theorem mem_published {port : InspectedPort} {published : PublishedBinding} :
    published ∈ port.published ↔ ∃ binding ∈ port.bindings.getD [],
      truthy binding.hostPort = true ∧ ∃ address ∈ binding.addresses,
        published = ⟨address, binding.hostPort.getD "", port.container, port.protocol⟩ := by
  rw [InspectedPort.published, List.mem_flatMap]
  constructor
  · rintro ⟨binding, hbinding, hin⟩
    obtain ⟨hmem, htruthy⟩ := List.mem_filter.mp hbinding
    obtain ⟨address, haddress, rfl⟩ := List.mem_map.mp hin
    exact ⟨binding, hmem, htruthy, address, haddress, rfl⟩
  · rintro ⟨binding, hmem, htruthy, address, haddress, rfl⟩
    exact ⟨binding, List.mem_filter.mpr ⟨hmem, htruthy⟩, List.mem_map_of_mem haddress⟩

theorem PortBinding.addresses_of_empty {binding : PortBinding}
    (h : ¬ truthy binding.hostIp = true) : binding.addresses = allAddresses := if_neg h

theorem PortBinding.addresses_of_one {binding : PortBinding} {address : String}
    (h : truthy binding.hostIp = true) (haddress : binding.hostIp = some address) :
    binding.addresses = [address] := by
  rw [PortBinding.addresses, if_pos h, haddress, Option.getD_some]

/-- The values come from the bindings with a host port. -/
theorem mem_publishValues {ports : List InspectedPort} {value : String} :
    value ∈ (portsFromInspect (some (ports.map InspectedPort.entry))).filterMap
        (publishValue? .empty) ↔
      ∃ port ∈ ports, ∃ binding ∈ port.bindings.getD [], truthy binding.hostPort = true ∧
        publishValue? .empty (portEntry port.entry.1 binding) = some value := by
  rw [List.mem_filterMap]
  constructor
  · rintro ⟨manifest, hmanifest, hvalue⟩
    obtain ⟨entry, hentry, hmanifest⟩ := List.mem_flatMap.mp hmanifest
    obtain ⟨port, hport, rfl⟩ := List.mem_map.mp hentry
    obtain ⟨binding, hbinding, rfl⟩ := List.mem_map.mp hmanifest
    refine ⟨port, hport, binding, hbinding, ?_, hvalue⟩
    by_contra h
    cases (@publishValue_unpublished port binding h).symm.trans hvalue
  · rintro ⟨port, hport, binding, hbinding, -, hvalue⟩
    exact ⟨_, List.mem_flatMap.mpr ⟨port.entry, List.mem_map.mpr ⟨port, hport, rfl⟩,
      List.mem_map.mpr ⟨binding, hbinding, rfl⟩⟩, hvalue⟩

theorem read_plainValue (docker : PublishSyntax) {port : InspectedPort} {binding : PortBinding}
    (hmem : binding ∈ port.bindings.getD []) (h : truthy binding.hostPort = true) :
    docker.read (plainValue port binding) = some (allAddresses.map fun address =>
      ⟨address, binding.hostPort.getD "", port.container, port.protocol⟩) :=
  docker.read_all _ _ _ (port.isPort_hostPort binding hmem h) port.isPort_container
    port.mem_protocol

/-- Without a `:` in its brackets the value of a binding is the plain one. -/
theorem publishValue_plain {port : InspectedPort} {binding : PortBinding}
    (hmem : binding ∈ port.bindings.getD []) (h : truthy binding.hostPort = true)
    (hcolon : ∀ address, binding.bracketed = some address → ':' ∉ address.toList) :
    publishValue? .empty (portEntry port.entry.1 binding) = some (plainValue port binding) := by
  cases haddress : binding.bracketed with
  | none => exact publishValue_all hmem h haddress
  | some address => exact publishValue_dropped hmem h haddress (hcolon address haddress)

section
variable {ports : List InspectedPort}

/-- Docker accepts no value with a `:` between its brackets. -/
theorem notMem_colon_of_accepted {docker : PublishSyntax}
    (haccepted : ∀ value ∈ (portsFromInspect (some (ports.map InspectedPort.entry))).filterMap
      (publishValue? .empty), (docker.read value).isSome = true)
    {port : InspectedPort} (hport : port ∈ ports) {binding : PortBinding}
    (hbinding : binding ∈ port.bindings.getD []) (htruthy : truthy binding.hostPort = true)
    {address : String} (haddress : binding.bracketed = some address) : ':' ∉ address.toList := by
  intro hcolon
  have hvalue := haccepted _ (mem_publishValues.mpr ⟨port, hport, binding, hbinding, htruthy,
    publishValue_bracketed htruthy haddress hcolon⟩)
  rw [read_bracketed docker hbinding htruthy] at hvalue
  cases hvalue

/-- When every value is plain, the values are read as both addresses of every binding. -/
theorem mem_read_plainValues (docker : PublishSyntax)
    (hplain : ∀ port ∈ ports, ∀ binding ∈ port.bindings.getD [],
      truthy binding.hostPort = true →
        publishValue? .empty (portEntry port.entry.1 binding) = some (plainValue port binding))
    {published : PublishedBinding} :
    (∃ value ∈ (portsFromInspect (some (ports.map InspectedPort.entry))).filterMap
        (publishValue? .empty), ∃ read, docker.read value = some read ∧ published ∈ read) ↔
      ∃ port ∈ ports, ∃ binding ∈ port.bindings.getD [], truthy binding.hostPort = true ∧
        ∃ address ∈ allAddresses,
          published = ⟨address, binding.hostPort.getD "", port.container, port.protocol⟩ := by
  constructor
  · rintro ⟨value, hvalue, read, hread, hin⟩
    obtain ⟨port, hport, binding, hbinding, htruthy, hvalue⟩ := mem_publishValues.mp hvalue
    obtain rfl := Option.some.inj ((hplain port hport binding hbinding htruthy).symm.trans hvalue)
    rw [read_plainValue docker hbinding htruthy] at hread
    obtain rfl := Option.some.inj hread
    obtain ⟨address, haddress, rfl⟩ := List.mem_map.mp hin
    exact ⟨port, hport, binding, hbinding, htruthy, address, haddress, rfl⟩
  · rintro ⟨port, hport, binding, hbinding, htruthy, address, haddress, rfl⟩
    exact ⟨_, mem_publishValues.mpr ⟨port, hport, binding, hbinding, htruthy,
      hplain port hport binding hbinding htruthy⟩, _, read_plainValue docker hbinding htruthy,
      List.mem_map_of_mem haddress⟩

/-- **The values keep the bindings if and only if no binding needs its address.** -/
theorem portsKept_iff (docker : PublishSyntax) (ports : List InspectedPort) :
    PortsKept docker ports ((portsFromInspect (some (ports.map InspectedPort.entry))).filterMap
        (publishValue? .empty)) ↔ PublishedWithoutAddress ports := by
  constructor
  · rintro ⟨haccepted, hset⟩ port hport binding hbinding htruthy
    have hcolon := @notMem_colon_of_accepted ports docker haccepted
    have hread := @mem_read_plainValues ports docker fun _ hport _ hbinding htruthy =>
      publishValue_plain hbinding htruthy fun _ haddress =>
        hcolon hport hbinding htruthy haddress
    by_cases hempty : truthy binding.hostIp = true
    · right
      obtain ⟨address, haddress⟩ : ∃ address, binding.hostIp = some address := by
        cases hip : binding.hostIp with
        | none => rw [hip] at hempty; cases hempty
        | some address => exact ⟨address, rfl⟩
      -- its address is one of those that the values are read as
      obtain ⟨port₁, -, binding₁, -, -, address₁, haddress₁, heq₁⟩ := hread.mp ((hset _).mpr
        ⟨port, hport, mem_published.mpr ⟨binding, hbinding, htruthy, address,
          by rw [PortBinding.addresses_of_one hempty haddress]; exact List.mem_singleton_self _,
          rfl⟩⟩)
      obtain rfl : address = address₁ := congrArg PublishedBinding.address heq₁
      have hzero : address = "0.0.0.0" := by
        by_contra hne
        have hbracketed : binding.bracketed = some address := by
          rw [PortBinding.bracketed, if_pos ⟨hempty, by rw [haddress]; simpa using hne⟩, haddress]
        have hsix : address = "::" :=
          List.mem_singleton.mp ((List.mem_cons.mp haddress₁).resolve_left hne)
        rw [hsix] at hbracketed
        exact hcolon hport hbinding htruthy hbracketed (by decide)
      -- and so is `::`, which only a binding without an address has
      obtain ⟨port', hport', hin⟩ := (hset _).mp (hread.mpr
        ⟨port, hport, binding, hbinding, htruthy, "::", by decide, rfl⟩)
      obtain ⟨binding', hbinding', htruthy', address', haddress', heq⟩ := mem_published.mp hin
      obtain rfl : "::" = address' := congrArg PublishedBinding.address heq
      have hempty' : ¬ truthy binding'.hostIp = true := by
        intro hsome
        have hip : binding'.hostIp = some "::" := by
          cases hip : binding'.hostIp with
          | none => rw [hip] at hsome; cases hsome
          | some other =>
            rw [PortBinding.addresses_of_one hsome hip] at haddress'
            rw [List.mem_singleton.mp haddress']
        refine hcolon hport' hbinding' htruthy' ?_ (by decide : ':' ∈ "::".toList)
        rw [PortBinding.bracketed, if_pos ⟨hsome, by rw [hip]; decide⟩, hip]
      refine ⟨by rw [haddress, hzero], port', hport', binding', hbinding', hempty', ?_,
        (congrArg PublishedBinding.container heq).symm,
        (congrArg PublishedBinding.protocol heq).symm⟩
      have hhost : binding.hostPort.getD "" = binding'.hostPort.getD "" :=
        congrArg PublishedBinding.hostPort heq
      cases hleft : binding.hostPort with
      | none => rw [hleft] at htruthy; cases htruthy
      | some left =>
        cases hright : binding'.hostPort with
        | none => rw [hright] at htruthy'; cases htruthy'
        | some right =>
          rw [hleft, hright] at hhost
          exact congrArg some hhost.symm
    · exact .inl hempty
  · intro hwithout
    have hbracketed : ∀ port ∈ ports, ∀ binding ∈ port.bindings.getD [],
        truthy binding.hostPort = true → binding.bracketed = none := by
      intro port hport binding hbinding htruthy
      refine if_neg fun hsome => ?_
      rcases hwithout port hport binding hbinding htruthy with hempty | ⟨hzero, -⟩
      · exact hempty hsome.1
      · exact hsome.2 hzero
    have hplain : ∀ port ∈ ports, ∀ binding ∈ port.bindings.getD [],
        truthy binding.hostPort = true →
          publishValue? .empty (portEntry port.entry.1 binding) =
            some (plainValue port binding) := fun port hport binding hbinding htruthy =>
      publishValue_all hbinding htruthy (hbracketed port hport binding hbinding htruthy)
    refine ⟨fun value hvalue => ?_, fun published => ?_⟩
    · obtain ⟨port, hport, binding, hbinding, htruthy, hvalue⟩ := mem_publishValues.mp hvalue
      obtain rfl :=
        Option.some.inj ((hplain port hport binding hbinding htruthy).symm.trans hvalue)
      rw [read_plainValue docker hbinding htruthy]
      rfl
    · rw [mem_read_plainValues docker hplain]
      constructor
      · rintro ⟨port, hport, binding, hbinding, htruthy, address, haddress, rfl⟩
        rcases hwithout port hport binding hbinding htruthy with
          hempty | ⟨-, port', hport', binding', hbinding', hempty', hhost, hcontainer, hprotocol⟩
        · exact ⟨port, hport, mem_published.mpr ⟨binding, hbinding, htruthy, address,
            by rwa [PortBinding.addresses_of_empty hempty], rfl⟩⟩
        · exact ⟨port', hport', mem_published.mpr ⟨binding', hbinding', by rwa [hhost], address,
            by rwa [PortBinding.addresses_of_empty hempty'], by rw [hhost, hcontainer, hprotocol]⟩⟩
      · rintro ⟨port, hport, hin⟩
        obtain ⟨binding, hbinding, htruthy, address, haddress, rfl⟩ := mem_published.mp hin
        refine ⟨port, hport, binding, hbinding, htruthy, address, ?_, rfl⟩
        rcases hwithout port hport binding hbinding htruthy with hempty | ⟨hzero, -⟩
        · rwa [PortBinding.addresses_of_empty hempty] at haddress
        · rw [PortBinding.addresses_of_one (by rw [hzero]; decide) hzero] at haddress
          rw [List.mem_singleton.mp haddress]
          decide

end

theorem publishFlags_standalone (container : ContainerManifest) (ports : List InspectedPort)
    (name : String) (volumeMap bindMap networkMap : Record)
    (himage : isImageWord container.image = true) :
    publishFlags (buildStandaloneContainerCreateCommand
        { container with ports := portsFromInspect (some (ports.map InspectedPort.entry)) }
        name volumeMap bindMap .empty networkMap) =
      (portsFromInspect (some (ports.map InspectedPort.entry))).filterMap
        (publishValue? .empty) := by
  generalize hcontainer :
    { container with ports := portsFromInspect (some (ports.map InspectedPort.entry)) } = clone
  have hports : clone.ports = portsFromInspect (some (ports.map InspectedPort.entry)) := by
    rw [← hcontainer]
  have hread : parseArguments (standaloneRequest clone name volumeMap bindMap .empty
      networkMap).words = some (standaloneRequest clone name volumeMap bindMap .empty
        networkMap) := by
    refine parseArguments_words _ ?_
    rw [← hcontainer]
    exact himage
  rw [publishFlags, standalone_words]
  simp only [hread]
  rw [standalone_publish, hports]

/-- **Which bindings a clone keeps.**  For every port map of `docker inspect`, the `-p` options of
    the command with no remapping are accepted and denote the bindings with a host port if and
    only if all of these are published without an address, or on `0.0.0.0` beside a binding of the
    same ports without one. -/
theorem clone_ports_iff (docker : PublishSyntax) (container : ContainerManifest)
    (ports : List InspectedPort) (name : String) (volumeMap bindMap networkMap : Record)
    (himage : isImageWord container.image = true) :
    PortsKept docker ports (publishFlags (buildStandaloneContainerCreateCommand
        { container with ports := portsFromInspect (some (ports.map InspectedPort.entry)) }
        name volumeMap bindMap .empty networkMap)) ↔ PublishedWithoutAddress ports := by
  rw [publishFlags_standalone container ports name volumeMap bindMap networkMap himage]
  exact portsKept_iff docker ports

/-! ### A reader of the values -/

/-- The parts before the last `:`, read from behind: the host port and the address. -/
def readHost (back : List Char) : List Char × Option String :=
  ((back.takeWhile (· ≠ ':')).reverse,
    match back.dropWhile (· ≠ ':') with
    | [] => none
    | _ :: address => some (String.ofList (address.reverse.filter fun c => c ≠ '[' && c ≠ ']')))

/-- `[address:]hostPort:containerPort/protocol`, for single ports; without an address the port is
    published on all of them. -/
def readPublish (value : String) : Option (List PublishedBinding) :=
  let back := value.toList.reverse
  match back.dropWhile (· ≠ ':') with
  | [] => some []
  | _ :: rest =>
    let (host, address) := readHost rest
    let (container, protocol) :=
      splitPortKey (String.ofList (back.takeWhile (· ≠ ':')).reverse)
    if host.all Char.isDigit && container.all Char.isDigit
        && ["tcp", "udp", "sctp"].contains (String.ofList protocol) then
      some ((address.elim allAddresses fun address => [address]).map fun address =>
        ⟨address, String.ofList host, String.ofList container, String.ofList protocol⟩)
    else none

theorem dropWhile_separator {d : Char} {cs : List Char} (h : d ∈ cs) :
    ∃ rest, cs.dropWhile (· ≠ d) = d :: rest := by
  cases hdrop : cs.dropWhile (· ≠ d) with
  | nil =>
    have := List.dropWhile_eq_nil_iff.mp hdrop d h
    simp at this
  | cons c rest =>
    have hhead := List.head?_dropWhile_not (· ≠ d) cs
    rw [hdrop] at hhead
    simp only [List.head?_cons, ne_eq, decide_not, Bool.not_eq_false', decide_eq_true_eq] at hhead
    exact ⟨rest, by rw [hhead]⟩

theorem readPublish_all {host container protocol : String} (hhost : IsPort host)
    (hcontainer : IsPort container) (hprotocol : protocol ∈ ["tcp", "udp", "sctp"]) :
    readPublish (host ++ ":" ++ container ++ "/" ++ protocol) =
      some (allAddresses.map fun address => ⟨address, host, container, protocol⟩) := by
  have hback : ∀ c ∈ (container ++ "/" ++ protocol).toList.reverse, (decide (c ≠ ':')) = true := by
    intro c hc
    rw [decide_eq_true_eq]
    rintro rfl
    simp [isPort_notMem hcontainer (c := ':') (by decide), (mem_protocol_chars hprotocol).2.1] at hc
  have hfront : ∀ c ∈ host.toList.reverse, (decide (c ≠ ':')) = true := by
    intro c hc
    rw [decide_eq_true_eq]
    rintro rfl
    exact isPort_notMem hhost (by decide) (List.mem_reverse.mp hc)
  have htext : (host ++ ":" ++ container ++ "/" ++ protocol).toList.reverse =
      (container ++ "/" ++ protocol).toList.reverse ++ ':' :: host.toList.reverse := by
    simp
  have hkey : splitPortKey (container ++ "/" ++ protocol) =
      (container.toList, protocol.toList) :=
    splitPortKey_entry ⟨container, protocol, none, hcontainer, hprotocol, by simp, by simp⟩
  have hread : readHost host.toList.reverse = (host.toList, none) := by
    rw [readHost, List.takeWhile_eq_self_iff.mpr hfront, List.dropWhile_eq_nil_iff.mpr hfront,
      List.reverse_reverse]
  simp only [readPublish, htext, List.takeWhile_append_of_pos hback,
    List.dropWhile_append_of_pos hback]
  rw [List.dropWhile_cons_of_neg (by decide), List.takeWhile_cons_of_neg (by decide),
    List.append_nil, List.reverse_reverse, String.ofList_toList]
  simp only [hread, hkey, String.ofList_toList, List.all_eq_true.mpr (isPort_digits hhost).2,
    List.all_eq_true.mpr (isPort_digits hcontainer).2, List.contains_iff_mem.mpr hprotocol,
    Bool.and_self, if_true, Option.elim_none]

theorem readPublish_host {value : String} (h : (readPublish value).isSome = true)
    (hcolon : ':' ∈ value.toList) :
    ∃ front host container, value.toList = front ++ host ++ ':' :: container ∧
      (front = [] ∨ ∃ address, front = address ++ [':']) ∧
      (∀ c ∈ host, c.isDigit = true ∨ c = '-') ∧ ':' ∉ container := by
  obtain ⟨rest, hrest⟩ := dropWhile_separator (List.mem_reverse.mpr hcolon)
  have htext : value.toList =
      rest.reverse ++ ':' :: (value.toList.reverse.takeWhile (· ≠ ':')).reverse := by
    have hsplit := List.takeWhile_append_dropWhile (p := (· ≠ ':')) (l := value.toList.reverse)
    rw [hrest] at hsplit
    have hreverse := congrArg List.reverse hsplit
    rw [List.reverse_append, List.reverse_cons, List.append_assoc, List.reverse_reverse] at hreverse
    exact hreverse.symm
  refine ⟨(rest.dropWhile (· ≠ ':')).reverse, (rest.takeWhile (· ≠ ':')).reverse,
    (value.toList.reverse.takeWhile (· ≠ ':')).reverse, ?_, ?_, ?_, ?_⟩
  · rw [← List.reverse_append, List.takeWhile_append_dropWhile]
    exact htext
  · by_cases hmore : ':' ∈ rest
    · obtain ⟨address, haddress⟩ := dropWhile_separator hmore
      exact .inr ⟨address.reverse, by rw [haddress, List.reverse_cons]⟩
    · refine .inl ?_
      rw [List.reverse_eq_nil_iff, List.dropWhile_eq_nil_iff]
      intro c hc
      rw [decide_eq_true_eq]
      rintro rfl
      exact hmore hc
  · intro c hc
    left
    by_contra hdigit
    have hall : (rest.takeWhile (· ≠ ':')).reverse.all Char.isDigit = false := by
      rw [List.all_eq_false]
      exact ⟨c, hc, hdigit⟩
    simp only [readPublish, hrest, readHost, hall, Bool.false_and, Bool.false_eq_true,
      if_false] at h
    cases h
  · intro hin
    have := List.mem_takeWhile_imp (List.mem_reverse.mp hin)
    simp at this

/-- Docker with this reader. -/
def plainPublish : PublishSyntax where
  read := readPublish
  read_all := fun _ _ _ => readPublish_all
  host_digits := fun _ => readPublish_host

/-! ### Bindings with and without an address -/

/-- Port 80 of a container on port 8080 of the host. -/
def httpPort (hostIp : Option String) (h : (hostIp.getD "").toList.all isAddressChar = true) :
    InspectedPort where
  container := "80"
  protocol := "tcp"
  bindings := some [⟨hostIp, some "8080"⟩]
  isPort_container := ⟨80, by decide, by decide, rfl⟩
  mem_protocol := by decide
  isPort_hostPort := by
    intro binding hbinding _
    obtain rfl := List.mem_singleton.mp hbinding
    exact ⟨8080, by decide, by decide, rfl⟩
  isAddress_hostIp := by
    intro binding hbinding
    obtain rfl := List.mem_singleton.mp hbinding
    exact List.all_eq_true.mp h

/-- Port 443 of a container, which is exposed and not published. -/
def exposedPort : InspectedPort where
  container := "443"
  protocol := "tcp"
  bindings := none
  isPort_container := ⟨443, by decide, by decide, rfl⟩
  mem_protocol := by decide
  isPort_hostPort := by simp
  isAddress_hostIp := by simp

/-- A container with a published and an exposed port. -/
def webPorts : List InspectedPort := [httpPort (some "") (by decide), exposedPort]

theorem clone_ports_all_addresses :
    PortsKept plainPublish webPorts
      (publishFlags (buildStandaloneContainerCreateCommand
        { webContainer with ports := portsFromInspect (some (webPorts.map InspectedPort.entry)) }
        "web-restore" webVolumeMap exactBindMap .empty .empty)) := by
  refine (clone_ports_iff plainPublish webContainer webPorts
    "web-restore" webVolumeMap exactBindMap .empty (by decide)).mpr ?_
  intro port hport binding hbinding _
  left
  rcases List.mem_cons.mp hport with rfl | hport
  · obtain rfl := List.mem_singleton.mp hbinding
    decide
  · obtain rfl := List.mem_singleton.mp hport
    cases hbinding

/-- The options of a clone of the container with this port. -/
def httpFlags (port : InspectedPort) : List String :=
  publishFlags (buildStandaloneContainerCreateCommand
    { webContainer with ports := portsFromInspect (some ([port].map InspectedPort.entry)) }
    "web-restore" webVolumeMap exactBindMap .empty .empty)

/-- A port of `127.0.0.1` is published on all addresses, and one of `::1` has a value that Docker
    rejects. -/
theorem loopback_bindings_lost :
    httpFlags (httpPort (some "127.0.0.1") (by decide)) = ["8080:80/tcp"] ∧
      httpFlags (httpPort (some "::1") (by decide)) = ["[::1]8080:80/tcp"] ∧
      ∀ docker : PublishSyntax,
        ¬ PortsKept docker [httpPort (some "127.0.0.1") (by decide)]
          (httpFlags (httpPort (some "127.0.0.1") (by decide))) ∧
        ¬ PortsKept docker [httpPort (some "::1") (by decide)]
          (httpFlags (httpPort (some "::1") (by decide))) := by
  have hflags : httpFlags (httpPort (some "127.0.0.1") (by decide)) = ["8080:80/tcp"] := by
    rw [httpFlags, publishFlags_standalone webContainer _ _ _ _ _ (by decide)]
    decide +kernel
  have hflags6 : httpFlags (httpPort (some "::1") (by decide)) = ["[::1]8080:80/tcp"] := by
    rw [httpFlags, publishFlags_standalone webContainer _ _ _ _ _ (by decide)]
    decide +kernel
  refine ⟨hflags, hflags6, fun docker => ⟨?_, ?_⟩⟩
  · rw [hflags]
    rintro ⟨-, hset⟩
    obtain ⟨value, hvalue, read, hread, hin⟩ :=
      (hset ⟨"127.0.0.1", "8080", "80", "tcp"⟩).mpr ⟨_, List.mem_singleton_self _, by decide⟩
    have hplain : docker.read "8080:80/tcp" =
        some [⟨"0.0.0.0", "8080", "80", "tcp"⟩, ⟨"::", "8080", "80", "tcp"⟩] :=
      docker.read_all "8080" "80" "tcp" ⟨8080, by decide, by decide, rfl⟩
        ⟨80, by decide, by decide, rfl⟩ (by decide)
    rw [List.mem_singleton.mp hvalue, hplain] at hread
    rw [← Option.some.inj hread] at hin
    exact absurd hin (by decide)
  · rw [hflags6]
    rintro ⟨haccepted, -⟩
    have hvalue := haccepted _ (List.mem_singleton_self _)
    have hnone : docker.read "[::1]8080:80/tcp" = none :=
      @read_bracketed (httpPort (some "::1") (by decide)) ⟨some "::1", some "8080"⟩ docker
        (List.mem_singleton_self _) (by decide) "::1"
    rw [hnone] at hvalue
    cases hvalue

end ComposeBastion
