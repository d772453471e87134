import BandwidthLimiter.Config.ListHead
import BandwidthLimiter.Config.Export
import BandwidthLimiter.Config.Insertion
import BandwidthLimiter.Foundation.Blocks

namespace BandwidthLimiter
open Foundation

/-- The blocks in use, with the links and the port of each. -/
structure PortHeap where
  links : ListHeap
  port : Nat → PortStr
  blocks : List Nat

namespace PortHeap

/-- A new block that `memset` fills with zeros. -/
def safeMalloc (malloc : List Nat → Nat) (heap : PortHeap) : Nat × PortHeap :=
  let ptr := malloc heap.blocks
  (ptr,
    { links := (heap.links.setNext ptr (.address 0)).setPrev ptr (.address 0)
      port := Function.update heap.port ptr .zero
      blocks := ptr :: heap.blocks })

/-- A write to one field of a port. -/
def assign (heap : PortHeap) (pData loop2 : Nat) (number : Int) : PortHeap :=
  { heap with port := Function.update heap.port pData ((heap.port pData).assign loop2 number) }

/-- The port around a node that is not freed. -/
def readPort (heap : PortHeap) (pos : Nat) : Option PortStr :=
  if pos ∈ heap.links.freed then none else some (heap.port pos)

end PortHeap

/-- The fields that are written to a node so far. -/
structure HeapScan where
  heap : PortHeap
  buffer : List Char
  temp1 : Option Nat

/-- One field; the last one ends at the bracket. -/
def HeapScan.next (pData : Nat) (scan : HeapScan) (loop2 : Nat) : HeapScan :=
  match scan.temp1 with
  | none => scan
  | some temp1 =>
      let field := strtok (if loop2 ≠ fieldSize then [','] else [']']) scan.buffer temp1
      let rest := strtok [']'] field.buffer field.saved
      { heap := match field.token with
          | none => scan.heap
          | some temp2 => scan.heap.assign pData loop2 (atoi (cString (field.buffer.drop temp2)))
        buffer := rest.buffer
        temp1 := rest.token }

/-- The node of a value buffer, the heap with its port, and the buffer after the calls of `strtok`. -/
def portNode (malloc : List Nat → Nat) (heap : PortHeap) (value : List Char) :
    Nat × PortHeap × List Char :=
  let (pData, heap) := heap.safeMalloc malloc
  let first := strtok ['['] value 0
  let scan := (List.range' 1 fieldSize).foldl (HeapScan.next pData) ⟨heap, first.buffer, first.token⟩
  (pData, scan.heap, scan.buffer)

/-- The parameters, with the list head as a cell of the heap. -/
structure ConfigRecord where
  noPort : Option UInt64
  libcPath : TextPointer
  serverIp : TextPointer
  portListHead : Nat

/-- The rest of the file, the parameters, the value buffer and the heap. -/
structure HeapParser where
  stream : List Char
  params : ConfigRecord
  value : List Char
  heap : PortHeap

namespace HeapParser

variable [OverlappingCopy]

/-- The body of the port loop; `none` means that a link of a freed node was touched. -/
def portBody (malloc : List Nat → Nat) (loop : UInt64) (parser : HeapParser) :
    Option (UInt64 × HeapParser) :=
  match fgets maxLen parser.stream with
  | none => some (loop + 1, parser)
  | some (line, stream) =>
      if isSkipped line then some (loop - 1 + 1, { parser with stream })
      else
        match nameValue line with
        | none => some (loop + 1, { parser with stream })
        | some (_, value) =>
            let (pData, heap, value) := portNode malloc parser.heap value
            (listAddTail heap.links pData parser.params.portListHead).map fun links =>
              (loop + 1, { parser with stream, value, heap := { heap with links } })

def portLoop (malloc : List Nat → Nat) (noPort : UInt64) :
    Nat → UInt64 → HeapParser → Option HeapParser
  | 0, _, _ => none
  | fuel + 1, loop, parser =>
      if loop ≤ noPort then
        (portBody malloc loop parser).bind fun next => portLoop malloc noPort fuel next.1 next.2
      else some parser

/-- The names other than the port count; a server port is only printed. -/
def assignText (params : ConfigRecord) (name value : List Char) : ConfigRecord × List Char :=
  let (text, value') := bracketText value
  if name = "LIBC_PATH".toList then ({ params with libcPath := text }, value')
  else if name = "SERVER_IP".toList then ({ params with serverIp := text }, value')
  else if name = "SERVER_PORT".toList then (params, value')
  else (params, value)

/-- The body of the outer loop for a line. -/
def parseLine (malloc : List Nat → Nat) (fuel : Nat) (line : List Char) (parser : HeapParser) :
    Option HeapParser :=
  if isSkipped line then some parser
  else
    match nameValue line with
    | none => some parser
    | some (name, value) =>
        if name = "NO_PORT".toList then
          let params := { parser.params with noPort := some (portCount value) }
          portLoop malloc (portCount value) fuel 1 { parser with params, value }
        else
          let (params, value) := assignText parser.params name value
          some { parser with params, value }

def parseLoop (malloc : List Nat → Nat) : Nat → HeapParser → Option HeapParser
  | 0, _ => none
  | fuel + 1, parser =>
      match fgets maxLen parser.stream with
      | none => some parser
      | some (line, stream) =>
          (parseLine malloc fuel line { parser with stream }).bind (parseLoop malloc fuel)

/-- The list head is set up before the file is opened. -/
def parseConfig (malloc : List Nat → Nat) (fuel : Nat) (heap : PortHeap) (head : Nat)
    (file : Option (List Char)) : Option (Int × HeapParser) :=
  (initListHead heap.links head).bind fun links =>
    let params : ConfigRecord := ⟨none, .unset, .unset, head⟩
    match file with
    | none => some (-1, ⟨[], params, [], { heap with links }⟩)
    | some content =>
        (parseLoop malloc fuel ⟨content, params, [], { heap with links }⟩).map fun parser => (1, parser)

end HeapParser

/-- The rest of the loop that copies the ports of the list to the tree. -/
def registerLoop (heap : PortHeap) (head : Nat) :
    Nat → Nat → RbTree uint32Comparison PortStruct → Option (RbTree uint32Comparison PortStruct)
  | 0, _, _ => none
  | fuel + 1, configPortItr, portRb =>
      if configPortItr ≠ head then do
        let pStr ← heap.readPort configPortItr
        let portRb := portRb.insert pStr.portNo
          (.ofLimits pStr.portNo pStr.upLimit pStr.downLimit pStr.latency)
        let following ← heap.links.readNext configPortItr
        registerLoop heap head fuel following portRb
      else some portRb

/-- The registration with the list of the parser on the heap; at its end the list is cleaned. -/
def doRegisterFromConfigOnHeap [OverlappingCopy] (malloc : List Nat → Nat)
    (memory : TextPointer → Option (List Char)) (fuel : Nat) (env : RegisterEnvStruct)
    (heap : PortHeap) (head : Nat) (file : Option (List Char)) : Option (Registration × PortHeap) :=
  match HeapParser.parseConfig malloc fuel heap head file with
  | none => none
  | some (status, parser) =>
      if status ≠ 0 then do
        let first ← parser.heap.links.readNext head
        let portRb ← registerLoop parser.heap head fuel first (.create uint32Comparison PortStruct)
        let text ← memory parser.params.libcPath
        let links ← doCleanupList fuel parser.heap.links head
        return ({ returnVal := true, env := { portRb := some portRb }, glibcPath := some text },
          { parser.heap with links })
      else some ({ returnVal := false, env, glibcPath := none }, parser.heap)

/-- The list on the heap holds the ports of the parser state, and its nodes are the blocks that were
allocated behind `before`. -/
structure HeapParser.Holds (head : Nat) (before nodes : List Nat) (state : ParserState)
    (parser : HeapParser) : Prop where
  stream : parser.stream = state.stream
  value : parser.value = state.value
  params : parser.params =
    ⟨state.params.noPort, state.params.libcPath, state.params.serverIp, head⟩
  ring : Ring parser.heap.links head nodes
  ports : nodes.map parser.heap.port = state.params.portListHead
  blocks : parser.heap.blocks = nodes.reverse ++ before
  intact : parser.heap.links.freed = []

/-- The parser on the heap is at a state of the parser. -/
def HeapParser.Refines (head : Nat) (before : List Nat) (state : ParserState) (parser : HeapParser) :
    Prop := ∃ nodes, parser.Holds head before nodes state

/-- Each block that was allocated behind `before` was freed once, in order, and its links are
poisoned. -/
structure PortHeap.Released (before : List Nat) (head : Nat) (nodes : List Nat) (heap : PortHeap) :
    Prop where
  blocks : heap.blocks = nodes.reverse ++ before
  freed : heap.links.freed = nodes
  once : nodes.Nodup
  poisoned : ∀ a ∈ nodes, heap.links.next a = .poison1 ∧ heap.links.prev a = .poison2
  alone : heap.links.next head = .address head ∧ heap.links.prev head = .address head

section Scan

variable {pData : Nat} {malloc : List Nat → Nat}

/-- The fields of a port, written to its node. -/
def FieldScan.onHeap (heap : PortHeap) (pData : Nat) (scan : FieldScan) : HeapScan :=
  ⟨{ heap with port := Function.update heap.port pData scan.pData }, scan.buffer, scan.temp1⟩

theorem HeapScan.next_onHeap (heap : PortHeap) (scan : FieldScan) (loop2 : Nat) :
    (scan.onHeap heap pData).next pData loop2 = (scan.next loop2).onHeap heap pData := by
  obtain ⟨data, buffer, temp1⟩ := scan
  cases temp1 with
  | none => rfl
  | some temp1 =>
      simp only [HeapScan.next, FieldScan.next, FieldScan.onHeap]
      cases (strtok (if loop2 ≠ fieldSize then [','] else [']']) buffer temp1).token with
      | none => rfl
      | some temp2 => simp [PortHeap.assign, Function.update_idem]

/-- A node holds the entry that the buffer gives. -/
theorem portNode_eq (malloc : List Nat → Nat) (heap : PortHeap) (value : List Char) :
    portNode malloc heap value = (malloc heap.blocks,
      { (heap.safeMalloc malloc).2 with
        port := Function.update heap.port (malloc heap.blocks) (portEntry value).1 },
      (portEntry value).2) := by
  let zeroed := (heap.safeMalloc malloc).2
  let first : FieldScan := ⟨.zero, (strtok ['['] value 0).buffer, (strtok ['['] value 0).token⟩
  have start : first.onHeap zeroed (malloc heap.blocks) = ⟨zeroed, first.buffer, first.temp1⟩ := by
    simp [FieldScan.onHeap, first, zeroed, PortHeap.safeMalloc]
  have fields : (List.range' 1 fieldSize).foldl (HeapScan.next (malloc heap.blocks))
      (first.onHeap zeroed (malloc heap.blocks)) =
        ((List.range' 1 fieldSize).foldl FieldScan.next first).onHeap zeroed (malloc heap.blocks) :=
    List.foldl_hom _ fun scan loop2 => HeapScan.next_onHeap zeroed scan loop2
  rw [start] at fields
  show (_, ((List.range' 1 fieldSize).foldl (HeapScan.next (malloc heap.blocks))
    ⟨zeroed, first.buffer, first.temp1⟩).heap, ((List.range' 1 fieldSize).foldl
      (HeapScan.next (malloc heap.blocks)) ⟨zeroed, first.buffer, first.temp1⟩).buffer) = _
  rw [fields]
  simp [FieldScan.onHeap, zeroed, PortHeap.safeMalloc, portEntry, first]

end Scan

namespace HeapParser

variable {malloc : List Nat → Nat} {head : Nat} {before nodes : List Nat} {state : ParserState}
  {parser : HeapParser} {heap : PortHeap}

/-- A new block leaves the ring as it is. -/
theorem safeMalloc_ring (ring : Ring heap.links head nodes)
    (fresh : malloc heap.blocks ∉ head :: nodes) :
    Ring (heap.safeMalloc malloc).2.links head nodes where
  linked := by
    have other : ∀ x ∈ head :: nodes, x ≠ malloc heap.blocks := fun x mem same =>
      fresh (same ▸ mem)
    apply ring.linked.congr
    · intro x mem
      simp [PortHeap.safeMalloc, other x mem]
    · intro x mem
      have inside : x ∈ head :: nodes := by
        simp only [List.mem_append, List.mem_cons, List.not_mem_nil, or_false] at mem ⊢
        tauto
      simp [PortHeap.safeMalloc, other x inside]
  distinct := ring.distinct
  live := ring.live

/-- A port line appends its node to the list. -/
theorem Holds.portNode (holds : parser.Holds head before nodes state)
    (fresh : ∀ blocks, malloc blocks ∉ blocks) (owned : head ∈ before) (stream value : List Char) :
    ∃ links, listAddTail (BandwidthLimiter.portNode malloc parser.heap value).2.1.links
        (malloc parser.heap.blocks) head = some links ∧
      HeapParser.Holds head before (nodes ++ [malloc parser.heap.blocks])
        { state with
          stream, value := (portEntry value).2
          params := { state.params with
            portListHead := state.params.portListHead ++ [(portEntry value).1] } }
        { parser with
          stream, value := (portEntry value).2
          heap := { (BandwidthLimiter.portNode malloc parser.heap value).2.1 with links } } := by
  obtain ⟨-, -, params, ring, ports, blocks, intact⟩ := holds
  have new := fresh parser.heap.blocks
  have outside : malloc parser.heap.blocks ∉ head :: nodes := by
    intro mem
    rw [blocks] at new
    rcases List.mem_cons.mp mem with same | mem
    · exact new (List.mem_append_right _ (by rw [← blocks, same]; exact owned))
    · exact new (List.mem_append_left _ (List.mem_reverse.mpr (by rwa [← blocks])))
  rw [portNode_eq]
  obtain ⟨links, add, addedRing, freed⟩ := listAddTail_spec (safeMalloc_ring ring outside) outside
    (show _ ∉ parser.heap.links.freed by simp [intact])
  refine ⟨links, add, rfl, rfl, params, addedRing, ?_, ?_, freed.trans intact⟩
  · have kept : nodes.map (Function.update parser.heap.port (malloc parser.heap.blocks)
        (portEntry value).1) = nodes.map parser.heap.port := by
      apply List.map_congr_left
      intro a mem
      have other : a ≠ malloc parser.heap.blocks := fun same =>
        outside (same ▸ List.mem_cons_of_mem _ mem)
      exact Function.update_of_ne other ..
    simp [kept, ports]
  · simp [PortHeap.safeMalloc, blocks]

/-- The text fields do not touch the list. -/
theorem Refines.assignText (refines : parser.Refines head before state) (name value : List Char) :
    HeapParser.Refines head before
      { state with
        params := (BandwidthLimiter.assignText state.params name value).1
        value := (BandwidthLimiter.assignText state.params name value).2 }
      { parser with
        params := (HeapParser.assignText parser.params name value).1
        value := (HeapParser.assignText parser.params name value).2 } := by
  obtain ⟨nodes, stream, -, params, ring, ports, blocks, intact⟩ := refines
  refine ⟨nodes, stream, ?_, ?_, ring, ?_, blocks, intact⟩
  all_goals simp only [HeapParser.assignText, BandwidthLimiter.assignText, params]
  all_goals split_ifs <;> first | rfl | exact ports

variable [OverlappingCopy]

/-- The port loop on the heap stays in step with the port loop. -/
theorem Refines.portBody (refines : parser.Refines head before state)
    (fresh : ∀ blocks, malloc blocks ∉ blocks) (owned : head ∈ before) (loop : UInt64) :
    ∃ next, HeapParser.portBody malloc loop parser =
        some ((BandwidthLimiter.portBody loop state).1, next) ∧
      next.Refines head before (BandwidthLimiter.portBody loop state).2 := by
  obtain ⟨nodes, holds⟩ := refines
  rw [HeapParser.portBody, BandwidthLimiter.portBody, holds.stream]
  cases taken : fgets maxLen state.stream with
  | none => exact ⟨parser, rfl, nodes, holds⟩
  | some read =>
      obtain ⟨line, stream⟩ := read
      have moved : HeapParser.Holds head before nodes { state with stream } { parser with stream } :=
        ⟨rfl, holds.value, holds.params, holds.ring, holds.ports, holds.blocks, holds.intact⟩
      simp only
      cases skipped : isSkipped line with
      | true =>
          simp only [if_true]
          exact ⟨_, rfl, nodes, moved⟩
      | false =>
          simp only [Bool.false_eq_true, if_false]
          cases found : nameValue line with
          | none => exact ⟨_, rfl, nodes, moved⟩
          | some pair =>
              obtain ⟨name, value⟩ := pair
              obtain ⟨links, add, added⟩ := holds.portNode fresh owned stream value
              rw [portNode_eq] at add added
              simp only [portNode_eq, holds.params, add, Option.map_some]
              exact ⟨_, rfl, _, holds.params ▸ added⟩

theorem Refines.portLoop (refines : parser.Refines head before state)
    (fresh : ∀ blocks, malloc blocks ∉ blocks) (owned : head ∈ before) (noPort loop : UInt64)
    (fuel : Nat) : Option.Rel (fun state parser => parser.Refines head before state)
      (BandwidthLimiter.portLoop noPort fuel loop state)
      (HeapParser.portLoop malloc noPort fuel loop parser) := by
  induction fuel generalizing loop state parser with
  | zero => exact .none
  | succ fuel ih =>
      rw [BandwidthLimiter.portLoop, HeapParser.portLoop]
      split
      · obtain ⟨next, body, later⟩ := refines.portBody fresh owned loop
        rw [body]
        exact ih later _
      · exact .some refines

theorem Refines.parseLine (refines : parser.Refines head before state)
    (fresh : ∀ blocks, malloc blocks ∉ blocks) (owned : head ∈ before) (line : List Char)
    (fuel : Nat) : Option.Rel (fun state parser => parser.Refines head before state)
      (BandwidthLimiter.parseLine fuel line state)
      (HeapParser.parseLine malloc fuel line parser) := by
  rw [BandwidthLimiter.parseLine, HeapParser.parseLine]
  cases skipped : isSkipped line with
  | true => exact .some refines
  | false =>
      simp only [Bool.false_eq_true, if_false]
      cases found : nameValue line with
      | none => exact .some refines
      | some pair =>
          obtain ⟨name, value⟩ := pair
          simp only
          split_ifs
          · apply Refines.portLoop _ fresh owned
            obtain ⟨nodes, stream, -, params, ring, ports, blocks, intact⟩ := refines
            exact ⟨nodes, stream, rfl, by rw [params], ring, ports, blocks, intact⟩
          · exact .some (refines.assignText name value)

theorem Refines.parseLoop (refines : parser.Refines head before state)
    (fresh : ∀ blocks, malloc blocks ∉ blocks) (owned : head ∈ before) (fuel : Nat) :
    Option.Rel (fun state parser => parser.Refines head before state)
      (BandwidthLimiter.parseLoop fuel state) (HeapParser.parseLoop malloc fuel parser) := by
  induction fuel generalizing state parser with
  | zero => exact .none
  | succ fuel ih =>
      have same : parser.stream = state.stream := by
        obtain ⟨nodes, holds⟩ := refines
        exact holds.stream
      rw [BandwidthLimiter.parseLoop, HeapParser.parseLoop, same]
      cases taken : fgets maxLen state.stream with
      | none => exact .some refines
      | some read =>
          obtain ⟨line, stream⟩ := read
          simp only
          apply rel_bind (Refines.parseLine _ fresh owned line fuel) fun _ _ => ih
          obtain ⟨nodes, -, value, params, ring, ports, blocks, intact⟩ := refines
          exact ⟨nodes, rfl, value, params, ring, ports, blocks, intact⟩

variable {file : Option (List Char)} {fuel more : Nat}

theorem parseConfig_refines (fresh : ∀ blocks, malloc blocks ∉ blocks) (owned : head ∈ heap.blocks)
    (intact : heap.links.freed = []) (file : Option (List Char)) (fuel : Nat) :
    Option.Rel (fun result result' => result'.1 = result.1 ∧
        result'.2.Refines head heap.blocks result.2)
      (BandwidthLimiter.parseConfig fuel file) (HeapParser.parseConfig malloc fuel heap head file) := by
  obtain ⟨links, init, ring, freed⟩ := initListHead_spec (show head ∉ heap.links.freed by simp [intact])
  have start (content : List Char) : HeapParser.Refines head heap.blocks ⟨content, .initial, []⟩
      ⟨content, ⟨none, .unset, .unset, head⟩, [], { heap with links }⟩ :=
    ⟨[], rfl, rfl, rfl, ring, rfl, rfl, freed.trans intact⟩
  rw [HeapParser.parseConfig, init, Option.bind_some]
  cases file with
  | none => exact .some ⟨rfl, start []⟩
  | some content =>
      simp only [BandwidthLimiter.parseConfig, Option.map_eq_bind]
      apply rel_bind ((start content).parseLoop fresh owned fuel)
      intro state parser refines
      exact .some ⟨rfl, refines⟩

theorem parseConfig_holds {status : Int} (fresh : ∀ blocks, malloc blocks ∉ blocks)
    (owned : head ∈ heap.blocks) (intact : heap.links.freed = [])
    (parsed : BandwidthLimiter.parseConfig fuel file = some (status, state)) : ∃ parser nodes,
      HeapParser.parseConfig malloc fuel heap head file = some (status, parser) ∧
        parser.Holds head heap.blocks nodes state := by
  have stepped := parseConfig_refines fresh owned intact file fuel
  rw [parsed] at stepped
  generalize HeapParser.parseConfig malloc fuel heap head file = run at stepped
  cases stepped with
  | @some _ result both =>
      obtain ⟨same, nodes, holds⟩ := both
      exact ⟨result.2, nodes, congrArg some (Prod.ext same rfl), holds⟩

end HeapParser

section Register

variable {heap : PortHeap} {head a : Nat} {nodes : List Nat}

/-- The loop inserts the ports of the nodes that are left, in order. -/
theorem registerLoop_spec
    (segment : Segment .address heap.links.next heap.links.prev a nodes head)
    (live : ∀ a ∈ nodes, a ∉ heap.links.freed) (outside : head ∉ nodes) (fuel : Nat)
    (portRb : RbTree uint32Comparison PortStruct) :
    registerLoop heap head fuel (firstCell nodes head) portRb =
      if nodes.length < fuel then
        some ((nodes.map heap.port).foldl (fun tree entry => tree.insert entry.portNo
          (.ofLimits entry.portNo entry.upLimit entry.downLimit entry.latency)) portRb)
      else none := by
  induction nodes generalizing a fuel portRb with
  | nil =>
      cases fuel with
      | zero => rfl
      | succ fuel => simp [registerLoop]
  | cons pos rest ih =>
      cases fuel with
      | zero => rfl
      | succ fuel =>
          have other : pos ≠ head := fun same => outside (same ▸ List.mem_cons_self)
          have here := live pos List.mem_cons_self
          have read : heap.readPort pos = some (heap.port pos) := if_neg here
          have following := readNext_eq here segment.2.next_start
          have later := ih segment.2 (fun a mem => live a (List.mem_cons_of_mem _ mem))
            (fun mem => outside (List.mem_cons_of_mem _ mem)) fuel
          rw [firstCell_cons, registerLoop, if_pos other, read, following]
          simp [later]

end Register

section Registration

variable [OverlappingCopy] {malloc : List Nat → Nat} {heap : PortHeap} {head fuel more : Nat}
  {file : Option (List Char)} {status : Int} {state : ParserState}

/-- A parsed file registers on the heap when the fuel visits all nodes, and every node is released. -/
theorem registration_parsed (fresh : ∀ blocks, malloc blocks ∉ blocks)
    (owned : head ∈ heap.blocks) (intact : heap.links.freed = [])
    (memory : TextPointer → Option (List Char)) (env : RegisterEnvStruct)
    (parsed : parseConfig fuel file = some (status, state)) : ∃ nodes after,
      doRegisterFromConfigOnHeap malloc memory fuel env heap head file =
        (if state.params.portListHead.length < fuel then
          (doRegisterFromConfigFile memory fuel env file).map fun registration => (registration, after)
        else none) ∧
      after.Released heap.blocks head nodes := by
  obtain ⟨parser, nodes, run, holds⟩ :=
    HeapParser.parseConfig_holds fresh owned intact parsed
  have nonzero : status ≠ 0 := by
    rw [parseConfig_status parsed]
    split <;> decide
  obtain ⟨links, clean, cleaned⟩ := doCleanupList_spec holds.ring
  have first := readNext_eq (holds.ring.live head List.mem_cons_self) holds.ring.linked.next_start
  have copied := registerLoop_spec holds.ring.linked
    (fun a mem => holds.ring.live a (List.mem_cons_of_mem _ mem))
    (List.nodup_cons.mp holds.ring.distinct).1 fuel (.create uint32Comparison PortStruct)
  have counted : nodes.length = state.params.portListHead.length := by
    simp [← holds.ports]
  refine ⟨nodes, { parser.heap with links }, ?_, ?_⟩
  · rw [doRegisterFromConfigFile_parsed memory env parsed, doRegisterFromConfigOnHeap, run]
    simp only [ne_eq, nonzero, not_false_eq_true, if_true]
    rw [first, Option.bind_eq_bind, Option.bind_some, copied, ← counted, holds.params]
    split
    · rename_i enough
      rw [clean fuel enough]
      cases memory state.params.libcPath with
      | none => rfl
      | some text => simp [doRegisterFromConfig, holds.ports]
    · rfl
  · refine ⟨holds.blocks, ?_, (List.nodup_cons.mp holds.ring.distinct).2, cleaned.poisoned,
      cleaned.alone⟩
    simp [cleaned.freed, holds.intact]

/-- The registration that keeps its ports in the intrusive list refines the registration of the parsed
ports: it gives the same results, it touches no freed link, and it frees each port that it allocated
exactly once. -/
theorem registration_onHeap (fresh : ∀ blocks, malloc blocks ∉ blocks) (owned : head ∈ heap.blocks)
    (intact : heap.links.freed = []) (memory : TextPointer → Option (List Char))
    (env : RegisterEnvStruct) (file : Option (List Char)) :
    (∀ fuel registration after,
      doRegisterFromConfigOnHeap malloc memory fuel env heap head file = some (registration, after) →
        doRegisterFromConfigFile memory fuel env file = some registration ∧
          ∃ nodes, after.Released heap.blocks head nodes) ∧
    ∀ fuel registration, doRegisterFromConfigFile memory fuel env file = some registration →
      ∃ enough, ∀ more ≥ enough, ∃ after,
        doRegisterFromConfigOnHeap malloc memory more env heap head file =
          some (registration, after) := by
  constructor
  · intro fuel registration after done
    cases parsed : parseConfig fuel file with
    | none =>
        have stepped := HeapParser.parseConfig_refines fresh owned intact file fuel
        rw [parsed] at stepped
        rw [doRegisterFromConfigOnHeap] at done
        generalize HeapParser.parseConfig malloc fuel heap head file = run at stepped done
        cases stepped
        cases done
    | some result =>
        obtain ⟨nodes, last, run, released⟩ :=
          registration_parsed fresh owned intact memory env parsed
        rw [run] at done
        split at done
        · obtain ⟨other, registered, same⟩ := Option.map_eq_some_iff.mp done
          obtain ⟨rfl, rfl⟩ := Prod.mk.inj same
          exact ⟨registered, nodes, released⟩
        · cases done
  · intro fuel registration registered
    cases parsed : parseConfig fuel file with
    | none => simp [doRegisterFromConfigFile, parsed] at registered
    | some result =>
        obtain ⟨status, state⟩ := result
        refine ⟨max fuel (state.params.portListHead.length + 1), fun more enough => ?_⟩
        have again := parseConfig_mono parsed (le_of_max_le_left enough)
        obtain ⟨nodes, last, run, -⟩ := registration_parsed fresh owned intact memory env again
        rw [doRegisterFromConfigFile_parsed memory env parsed] at registered
        have visits : state.params.portListHead.length < more := le_of_max_le_right enough
        rw [if_pos visits, doRegisterFromConfigFile_parsed memory env again, registered] at run
        exact ⟨last, run⟩

end Registration

attribute [local instance] OverlappingCopy.leftToRight in
/-- A file with one port allocates its node and frees it again. -/
theorem onePort_onHeap : ∃ fuel registration after,
    doRegisterFromConfigOnHeap nextBlock (fun _ => some "/lib".toList) fuel ⟨none⟩
      ⟨emptyHeap, fun _ => .zero, [8]⟩ 8 (some (fileText ([onePortLine] ++ [portLine]))) =
        some (registration, after) ∧
      registration.env = doRegisterFromConfig [⟨80, 5, 5, 0⟩] ∧ ∃ nodes, after.Released [8] 8 nodes := by
  obtain ⟨fuel, status, state, parsed, ports⟩ := onePort_parses
  have registered := doRegisterFromConfigFile_parsed (fun _ => some "/lib".toList) ⟨none⟩ parsed
  obtain ⟨sound, complete⟩ := registration_onHeap nextBlock_fresh
    (show 8 ∈ PortHeap.blocks ⟨emptyHeap, fun _ => .zero, [8]⟩ from List.mem_cons_self) rfl (fun _ => some "/lib".toList) ⟨none⟩
    (some (fileText ([onePortLine] ++ [portLine])))
  obtain ⟨enough, runs⟩ := complete fuel _ registered
  obtain ⟨after, run⟩ := runs enough le_rfl
  obtain ⟨-, released⟩ := sound enough _ after run
  exact ⟨enough, _, after, run, by rw [ports], released⟩

end BandwidthLimiter
