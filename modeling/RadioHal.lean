import RadioHal.Lib.Dialogue
import RadioHal.Lib.Loop
import RadioHal.Yaml.Config
import RadioHal.Yaml.ReadBack
import RadioHal.Yaml.Parse
import RadioHal.Yaml.Termination
import RadioHal.Yaml.Whitelist
import RadioHal.Modem.AtChannel
import RadioHal.Common.SysCmd
import RadioHal.Modem.Connect
import RadioHal.Modem.PinGuard
import RadioHal.Modem.DataSession
import RadioHal.Lib.Netlink
import RadioHal.Wifi.Softc
import RadioHal.Wifi.Nl80211
import RadioHal.Wifi.Answered
import RadioHal.Wifi.WpaCtrl
import RadioHal.Wifi.Hal
import RadioHal.Wifi.Monitor
import RadioHal.Wifi.Delivery
import RadioHal.Wifi.Events
import RadioHal.Wifi.Frame
import RadioHal.Wifi.Startup
import RadioHal.Wifi.Slots
import RadioHal.Wifi.Session
import RadioHal.Lib.Steps
import RadioHal.Wifi.Rounds
import RadioHal.Wifi.Machine
import RadioHal.Wifi.Connectivity
import RadioHal.Lib.Ownership
import RadioHal.Wifi.Handles
import RadioHal.Wifi.Commands
import RadioHal.Wifi.Acknowledged
import RadioHal.Wifi.Station
import RadioHal.Wifi.Outcomes
import RadioHal.Wifi.BroughtUp
import RadioHal.Lib.Lockstep
import RadioHal.Wifi.OwnConfig
import RadioHal.Lib.Stuck
import RadioHal.Modem.Response
import RadioHal.Modem.FirstLine
import RadioHal.Modem.Registration
import RadioHal.Lib.Fifo
import RadioHal.Modem.EventHandler
import RadioHal.Modem.EventPipe
import RadioHal.Wifi.Reopen
import RadioHal.Yaml.Independence
import RadioHal.Wifi.Debugfs
import RadioHal.Wifi.Readings
import RadioHal.Common.Msg
import RadioHal.Modem.Counters
import RadioHal.Wifi.Addressed
import RadioHal.Wifi.Enumeration
import RadioHal.Modem.Classified
import RadioHal.Lib.Numbers
import RadioHal.Wifi.ConfiguredNumbers
import RadioHal.Yaml.Keys
import RadioHal.Wifi.StationDumps
import RadioHal.Modem.Signal
import RadioHal.Lib.Memory
import RadioHal.Wifi.Tags
import RadioHal.Wifi.ScanResults
import RadioHal.Wifi.FailedOpen
import RadioHal.Lib.Shell
import RadioHal.Modem.Attach
import RadioHal.Modem.LineBuffer
import RadioHal.Modem.Framing
import RadioHal.Modem.Channel
import RadioHal.Modem.Wakeups
import RadioHal.Common.OutputReader
import RadioHal.Wifi.Spectral
import RadioHal.Wifi.WpaPairing
import RadioHal.Wifi.WpaSockets
import RadioHal.Modem.Fields
import RadioHal.Lib.Quotes
import RadioHal.Modem.Contained
import RadioHal.Modem.Sending
import RadioHal.Modem.Supervision
import RadioHal.Wifi.Provisioned
import RadioHal.Lib.Background
import RadioHal.Common.Manager
import RadioHal.Lib.Ledger
import RadioHal.Wifi.Lifetime
import RadioHal.Modem.Closing
import RadioHal.Wifi.MacAddress
import RadioHal.Lib.SharedSlot
import RadioHal.Modem.Lifetime
import RadioHal.Modem.SerialLines
import RadioHal.Modem.Released
import RadioHal.Modem.Reception
