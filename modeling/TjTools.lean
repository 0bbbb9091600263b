import TjTools.Basis.LittleEndian
import TjTools.Basis.Numerals
import TjTools.Basis.Runs
import TjTools.Basis.Focus
import TjTools.Basis.Triple
import TjTools.Basis.Lock
import TjTools.Basis.Loop
import TjTools.Basis.Polling
import TjTools.Basis.Search
import TjTools.Basis.Throwing
import TjTools.Basis.FirstMatch
import TjTools.Basis.Script
import TjTools.Basis.Simulation
import TjTools.Basis.Path
import TjTools.Basis.Bash
import TjTools.Basis.Shell
import TjTools.Basis.Grep
import TjTools.Iostream.Filebuf
import TjTools.Iostream.Fstream
import TjTools.Iostream.Handed
import TjTools.Iostream.Reading
import TjTools.Brightness.Files
import TjTools.Brightness.Backlight
import TjTools.Brightness.Panel
import TjTools.Brightness.Socket
import TjTools.Brightness.Wire
import TjTools.Brightness.Main
import TjTools.Brightness.Serve
import TjTools.Brightness.Agreement
import TjTools.Brightness.Range
import TjTools.Brightness.Saturation
import TjTools.Brightness.Storage
import TjTools.Brightness.Persistence
import TjTools.Brightness.Privileges
import TjTools.Brightness.Identity
import TjTools.Rstrip
import TjTools.Brightness.Sysfs
import TjTools.Aecram.Controller
import TjTools.Aecram.Driver
import TjTools.Aecram.Transfer
import TjTools.Aecram.Memory
import TjTools.Aecram.Interleaving
import TjTools.Aecram.Ports
import TjTools.Aecram.Linearize
import TjTools.Aecram.Mutex
import TjTools.Aecram.Provenance
import TjTools.Aecram.Retry
import TjTools.Aecram.Dump
import TjTools.Aecram.Util
import TjTools.Powerlimit.Profile
import TjTools.Powerlimit.Processes
import TjTools.Powerlimit.Recovery
import TjTools.Powerlimit.Gradual
import TjTools.Powerlimit.Tdp
import TjTools.AmdMicrocode.Format
import TjTools.AmdMicrocode.Parser
import TjTools.AmdMicrocode.Scan
import TjTools.AmdMicrocode.Layout
import TjTools.AmdMicrocode.Bounds
import TjTools.AmdMicrocode.Container
import TjTools.AmdMicrocode.Pairing
import TjTools.AmdMicrocode.Truncation
import TjTools.AmdMicrocode.Language
import TjTools.Bmi260.Extract
import TjTools.ClevoAmp.Adapter
import TjTools.ClevoAmp.Effect
import TjTools.ClevoAmp.Control
import TjTools.ActiveUser
import TjTools.Notify
import TjTools.AccessBlocker
import TjTools.BatteryWatch
import TjTools.BatteryWatch.Watch
import TjTools.Polkit
import TjTools.Urlparse
import TjTools.Urlparse.Decode
import TjTools.Urlparse.Case
import TjTools.UpperSanitize
import TjTools.SpeedControl
import TjTools.ScopeGuard
import TjTools.Container
import TjTools.Container.History
import TjTools.Fstrim
import TjTools.MsfToByte
import TjTools.Audio.Text
import TjTools.Audio.Rip
import TjTools.Audio.Eac
import TjTools.NetPs2
import TjTools.Waiting
import TjTools.StripMp4
