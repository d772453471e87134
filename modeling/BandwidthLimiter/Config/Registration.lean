import BandwidthLimiter.Config.Export
import BandwidthLimiter.Config.Render
import BandwidthLimiter.Port.Table

namespace BandwidthLimiter
open Foundation

/-- One entry gives the table that the environment gives for the same digits. -/
theorem doRegister_decimal (entry : ConfigEntry) : doRegisterFromConfig [entry.port] =
    doRegister (atoi (decimal entry.port.portNo.toNat)) (atoi (decimal entry.port.upLimit))
      (atoi (decimal entry.port.downLimit)) (atoi (decimal entry.port.latency.toNat)) := by
  have fits := entry.fits
  have proper : atoi (decimal entry.port.portNo.toNat) ≠ -1 := by
    rw [atoi_decimal (by omega) (by have := fits.portNo; omega)]
    omega
  rw [doRegister, if_neg proper, ofInt_decimal fits.portNo, ofInt_decimal fits.latency,
    atoi_decimal fits.upLimit.1 fits.upLimit.2, atoi_decimal fits.downLimit.1 fits.downLimit.2]
  rfl

/-- A registered port has its limits in thousands of bytes and its whole budget. -/
structure Limited (env : RegisterEnvStruct) (port : PortStr) : Prop where
  registered : isPortRegistered env port.portNo = true
  up : getInitUpLimit env port.portNo =
    if 0 < port.upLimit then 1000 * port.upLimit else port.upLimit
  down : getInitDownLimit env port.portNo =
    if 0 < port.downLimit then 1000 * port.downLimit else port.downLimit
  write : getRemainingByteCountForCurrentWindow env port.portNo false =
    getInitUpLimit env port.portNo
  read : getRemainingByteCountForCurrentWindow env port.portNo true =
    getInitDownLimit env port.portNo

/-- A port without an entry is free. -/
structure Free (env : RegisterEnvStruct) (port : UInt32) : Prop where
  unregistered : isPortRegistered env port = false
  up : getInitUpLimit env port = -1
  down : getInitDownLimit env port = -1

theorem doRegisterFromConfig_limited {entries : List PortStr} {entry : PortStr}
    (distinct : (entries.map PortStr.portNo).Nodup) (mem : entry ∈ entries) :
    Limited (doRegisterFromConfig entries) entry := by
  have found := get_doRegisterFromConfig distinct mem
  have scaled (limit : Int) :
      PortStruct.scaled limit = if 0 < limit then 1000 * limit else limit := by
    rw [PortStruct.scaled, Int.mul_comm]
  constructor
  · rw [isPortRegistered, found]
    rfl
  · rw [getInitUpLimit, found]
    exact scaled _
  · rw [getInitDownLimit, found]
    exact scaled _
  · rw [getRemainingByteCountForCurrentWindow, getInitUpLimit, found]
    rfl
  · rw [getRemainingByteCountForCurrentWindow, getInitDownLimit, found]
    rfl

theorem doRegisterFromConfig_free {entries : List PortStr} {port : UInt32}
    (absent : port ∉ entries.map PortStr.portNo) : Free (doRegisterFromConfig entries) port := by
  have missing := get_doRegisterFromConfig_absent absent
  constructor
  · rw [isPortRegistered, missing]
    rfl
  · rw [getInitUpLimit, missing]
  · rw [getInitDownLimit, missing]

/-- The entries of a file become the port table, when the text of the path stays readable. -/
theorem renderedFile_registers [OverlappingCopy] {entries : List ConfigEntry} {path : List Char}
    (file : RenderedFile entries path)
    (distinct : (entries.map fun entry => entry.port.portNo).Nodup) :
    ∃ fuel state, parseConfig fuel (some file.content) = some (1, state) ∧
      state.params.portListHead = entries.map ConfigEntry.port ∧
      (PlainPath path → state.text state.params.libcPath = some path) ∧
      ∀ memory env text, memory state.params.libcPath = some text →
        ∃ registration, doRegisterFromConfigFile memory fuel env (some file.content) =
            some registration ∧
          registration.returnVal = true ∧ registration.glibcPath = some text ∧
          (∀ entry ∈ entries, Limited registration.env entry.port) ∧
          (∀ port, port ∉ entries.map (fun entry => entry.port.portNo) →
            Free registration.env port) ∧
          ∀ entry, entries = [entry] → registration.env =
            doRegister (atoi (decimal entry.port.portNo.toNat)) (atoi (decimal entry.port.upLimit))
              (atoi (decimal entry.port.downLimit)) (atoi (decimal entry.port.latency.toNat)) := by
  obtain ⟨fuel, state, parsed, ports, kept⟩ := file.parses distinct
  refine ⟨fuel, state, parsed, ports, kept, fun memory env text readable => ?_⟩
  have registered := doRegisterFromConfigFile_parsed memory env parsed
  rw [readable, ports] at registered
  have same : (entries.map ConfigEntry.port).map PortStr.portNo =
      entries.map fun entry => entry.port.portNo := List.map_map
  refine ⟨_, registered, rfl, rfl, ?_, ?_, ?_⟩
  · intro entry mem
    exact doRegisterFromConfig_limited (same ▸ distinct) (List.mem_map_of_mem mem)
  · intro port absent
    exact doRegisterFromConfig_free (same ▸ absent)
  · rintro entry rfl
    exact doRegister_decimal entry

def webEntry : ConfigEntry where
  name := "PORT1".toList
  port := ⟨5000, 1024, -1, 245⟩
  named := by simp
  plain := by simp
  visible := by decide
  portNo := by decide
  upLimit := by decide
  downLimit := by decide
  latency := by decide

/-- A file with a comment and empty lines around one port. -/
def webFile : RenderedFile [webEntry] "/lib/libc.so.6".toList where
  lines := ["# limits".toList, [], "NO_PORT=1".toList, [], "PORT1=[5000,1024,-1,245]".toList,
    "LIBC_PATH=[/lib/libc.so.6]".toList, []]
  plain := by simp
  short := by simp
  order := by decide

attribute [local instance] OverlappingCopy.leftToRight in
theorem webFile_registers : ∃ fuel registration,
    doRegisterFromConfigFile (fun _ => some "/lib/libc.so.6".toList) fuel ⟨none⟩
      (some webFile.content) = some registration ∧
      registration.returnVal = true ∧ getInitUpLimit registration.env 5000 = 1024000 ∧
      getInitDownLimit registration.env 5000 = -1 ∧ isPortRegistered registration.env 80 = false := by
  obtain ⟨fuel, state, -, -, -, registers⟩ := renderedFile_registers webFile (by decide)
  obtain ⟨registration, registered, done, -, limited, free, -⟩ :=
    registers (fun _ => some "/lib/libc.so.6".toList) ⟨none⟩ _ rfl
  have web : Limited registration.env webEntry.port := limited webEntry (by simp)
  exact ⟨fuel, registration, registered, done, web.up, web.down, (free 80 (by decide)).unregistered⟩

end BandwidthLimiter
