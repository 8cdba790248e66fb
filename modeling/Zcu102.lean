import Zcu102.Sim.Prog
import Zcu102.Sim.Stream
import Zcu102.Sim.Steps
import Zcu102.Sim.Interleaving
import Zcu102.Sim.Barrier
import Zcu102.Sim.Chisel
import Zcu102.Sim.ShiftRegister
import Zcu102.Sim.Tap
import Zcu102.Sim.GroupBy
import Zcu102.Sim.Queue
import Zcu102.Sim.Text
import Zcu102.Sim.Division
import Zcu102.Sim.Crc
import Zcu102.Sim.Network
import Zcu102.Sim.Bytes
import Zcu102.Sim.Numeral
import Zcu102.Sim.Places
import Zcu102.Boot.Kprintf
import Zcu102.Boot.Format
import Zcu102.Boot.Sd
import Zcu102.Boot.Crc16
import Zcu102.Boot.CrcPoly
import Zcu102.Boot.Protocol
import Zcu102.Boot.Reads
import Zcu102.Boot.Copy
import Zcu102.Boot.Corruption
import Zcu102.Boot.Verdict
import Zcu102.Boot.Card
import Zcu102.Boot.ChipSelect
import Zcu102.Boot.CopyExits
import Zcu102.Boot.Hart
import Zcu102.Boot.Release
import Zcu102.Boot.Barrier
import Zcu102.Boot.Gate
import Zcu102.Shell.Diplomacy
import Zcu102.Shell.Mig
import Zcu102.Shell.Xdma
import Zcu102.Shell.Sdc
import Zcu102.Shell.SdcText
import Zcu102.Overlays.Registry
import Zcu102.Overlays.ClockInput
import Zcu102.Clocks.PllFactory
import Zcu102.Clocks.Generated
import Zcu102.Clocks.Groups
import Zcu102.Ethernet.Transmit
import Zcu102.Jtag.Tunnel
import Zcu102.Reset.Sequencer
import Zcu102.Reset.Hold
import Zcu102.Reset.Wrangler
import Zcu102.Pins.Enumeration
import Zcu102.Nfmac.Crc32
import Zcu102.Nfmac.Xgmii
import Zcu102.Nfmac.Axis2xgmii
import Zcu102.Nfmac.Gap
import Zcu102.Nfmac.PaddingCtrl
import Zcu102.Nfmac.Tx
import Zcu102.Nfmac.Sender
import Zcu102.Nfmac.Handshake
import Zcu102.Nfmac.Xgmii2axis
import Zcu102.Nfmac.Receive
import Zcu102.Nfmac.Link
import Zcu102.Nfmac.Stream
import Zcu102.Nfmac.Genuine
import Zcu102.Ethernet.Port
