import Wap4410n.Ag7100.Invariant
import Wap4410n.Support.CString
import Wap4410n.Support.Block
import Wap4410n.Support.Loop
import Wap4410n.Support.Assoc
import Wap4410n.Support.File
import Wap4410n.Support.Stream
import Wap4410n.Support.Print
import Wap4410n.Support.Inet
import Wap4410n.Support.Act
import Wap4410n.Support.Lines
import Wap4410n.Support.Forest
import Wap4410n.Support.Runs
import Wap4410n.Nvram.Shadow
import Wap4410n.Nvram.Store
import Wap4410n.Nvram.Set
import Wap4410n.Nvram.Growth
import Wap4410n.Nvram.Flash
import Wap4410n.Nvram.Faults
import Wap4410n.Nvram.Durability
import Wap4410n.Nvram.Overlay
import Wap4410n.Scfg.Socket
import Wap4410n.Scfg.Server
import Wap4410n.Scfg.Commands
import Wap4410n.Scfg.Client
import Wap4410n.Scfg.Safety
import Wap4410n.Scfg.Capacity
import Wap4410n.Scfg.Report
import Wap4410n.Apcfg.Config
import Wap4410n.Apcfg.Radio
import Wap4410n.Apcfg.Shared
import Wap4410n.Apcfg.Vap
import Wap4410n.Apcfg.OpMode
import Wap4410n.Apcfg.Copies
import Wap4410n.Apcfg.Defaults
import Wap4410n.Apcfg.Acl
import Wap4410n.Apcfg.AclMap
import Wap4410n.Apcfg.Vlan
import Wap4410n.Apcfg.VlanSet
import Wap4410n.Apcfg.LegalAp
import Wap4410n.Apcfg.System
import Wap4410n.Apcfg.Wlan
import Wap4410n.Apcfg.Buffers
import Wap4410n.Editcfg.Globals
import Wap4410n.Editcfg.Assign
import Wap4410n.Editcfg.Output
import Wap4410n.Editcfg.Tables
import Wap4410n.Editcfg.Load
import Wap4410n.Editcfg.Dump
import Wap4410n.Editcfg.Export
import Wap4410n.Editcfg.Import
import Wap4410n.Editcfg.Apply
import Wap4410n.Editcfg.Secrets
import Wap4410n.Editcfg.LegalList
import Wap4410n.Editcfg.Frame
import Wap4410n.Editcfg.Recognise
import Wap4410n.Editcfg.Blocks
import Wap4410n.Editcfg.Rows
import Wap4410n.Editcfg.Length
import Wap4410n.Editcfg.Injection
import Wap4410n.Apply.Tree
import Wap4410n.Apply.Handshake
import Wap4410n.Apply.Restart
import Wap4410n.Snmp.Agent
import Wap4410n.Snmp.TrustedHost
import Wap4410n.Snmp.Contents
import Wap4410n.Cli.Tokens
import Wap4410n.Cli.Words
import Wap4410n.Syslog.Circular
import Wap4410n.Syslog.Datagram
import Wap4410n.Apcfg.VlanApply
import Wap4410n.Snmp.Indoor
import Wap4410n.Utility.Escape
import Wap4410n.Utility.IpMask
import Wap4410n.Utility.WdsVlan
import Wap4410n.Utility.GwIpv6
import Wap4410n.Ag7100.TxInvariant
import Wap4410n.Ag7100.Athrs26Runs
import Wap4410n.Nvram.Crc
import Wap4410n.Editcfg.HexStr
import Wap4410n.Editcfg.TimeValues
import Wap4410n.Utility.Hex
import Wap4410n.Apcfg.Bridges
import Wap4410n.Scfg.MultiGet
import Wap4410n.Utility.GwInfo
import Wap4410n.Snmp.RemoteMac
import Wap4410n.Cli.Handlers
import Wap4410n.Cli.Pin
import Wap4410n.Utility.MacPlusOne
import Wap4410n.Ag7100.Segments
import Wap4410n.Ag7100.Lifecycle
import Wap4410n.Utility.Email
import Wap4410n.Led.Blink
import Wap4410n.PushButton.PbAp
import Wap4410n.Cli.Url
import Wap4410n.Cli.NetAddr
import Wap4410n.Editcfg.Tokenizer
import Wap4410n.Editcfg.FileLines
import Wap4410n.Syslog.Config
import Wap4410n.Support.Wp
import Wap4410n.Apcfg.Wp
import Wap4410n.Apcfg.Accepted
import Wap4410n.Snmp.Fields
import Wap4410n.Snmp.View
import Wap4410n.Snmp.Scalars
import Wap4410n.Snmp.ReadBack
import Wap4410n.Snmp.Rows
import Wap4410n.Snmp.Isolation
import Wap4410n.Support.Persistent
import Wap4410n.Scfg.Exchange
