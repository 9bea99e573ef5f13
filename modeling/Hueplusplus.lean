import Hueplusplus.Foundation.Except
import Hueplusplus.Foundation.OrderedMap
import Hueplusplus.Foundation.System
import Hueplusplus.Foundation.Effect
import Hueplusplus.Foundation.Alike
import Hueplusplus.Foundation.Text
import Hueplusplus.Foundation.Cuts
import Hueplusplus.Foundation.Buffer
import Hueplusplus.Foundation.Plane
import Hueplusplus.Foundation.Search
import Hueplusplus.Foundation.MessageLines
import Hueplusplus.Foundation.HttpRequest
import Hueplusplus.Foundation.Hex
import Hueplusplus.Foundation.FirstWins
import Hueplusplus.Foundation.Calendar
import Hueplusplus.Foundation.Writes
import Hueplusplus.Json
import Hueplusplus.Json.Members
import Hueplusplus.Action
import Hueplusplus.HueCommandAPI
import Hueplusplus.HueCommandAPI.RequestDelay
import Hueplusplus.Utils
import Hueplusplus.Utils.Reply
import Hueplusplus.ColorUnits
import Hueplusplus.ColorUnits.Gamut
import Hueplusplus.ColorUnits.Division
import Hueplusplus.ColorUnits.RGB
import Hueplusplus.StateTransaction.Basic
import Hueplusplus.ColorUnits.ToXY
import Hueplusplus.ColorUnits.Hue
import Hueplusplus.StateTransaction.Spec
import Hueplusplus.StateTransaction.Trim
import Hueplusplus.StateTransaction.Commit
import Hueplusplus.StateTransaction.LastCall
import Hueplusplus.StateTransaction.Ranges
import Hueplusplus.StateTransaction.Meaning
import Hueplusplus.StateTransaction.Action
import Hueplusplus.Light.Bridge
import Hueplusplus.StateTransaction.Switching
import Hueplusplus.StateTransaction.Sync
import Hueplusplus.StateTransaction.Again
import Hueplusplus.StateTransaction.Outdated
import Hueplusplus.Light.Basic
import Hueplusplus.Light.AlertSequence
import Hueplusplus.Light.Alert
import Hueplusplus.Light.Brightness
import Hueplusplus.APICache.Basic
import Hueplusplus.APICache.Moves
import Hueplusplus.APICache.Views
import Hueplusplus.APICache.Attribution
import Hueplusplus.APICache.Freshness
import Hueplusplus.APICache.Requests
import Hueplusplus.APICache.Propagation
import Hueplusplus.APICache.Overflow
import Hueplusplus.Resources.Setters
import Hueplusplus.Light.ReadColor
import Hueplusplus.Resources.ReadBack
import Hueplusplus.Resources.Shortcuts
import Hueplusplus.Resources.Device
import Hueplusplus.TimePattern.Duration
import Hueplusplus.TimePattern.Timestamp
import Hueplusplus.TimePattern.Basic
import Hueplusplus.TimePattern.UTC
import Hueplusplus.TimePattern.RoundTrip
import Hueplusplus.Foundation.BitMask
import Hueplusplus.TimePattern.Weekdays
import Hueplusplus.TimePattern.Copy
import Hueplusplus.TimePattern.Grammar
import Hueplusplus.Resources.Conditions
import Hueplusplus.EntertainmentMode.Message
import Hueplusplus.EntertainmentMode.ClientKey
import Hueplusplus.Resources.LightIds
import Hueplusplus.Resources.CreateScene
import Hueplusplus.Resources.LightStates
import Hueplusplus.Resources.Recall
import Hueplusplus.Resources.Attributes
import Hueplusplus.Resources.Schedule
import Hueplusplus.Resources.RuleGroup
import Hueplusplus.Bridge.Basic
import Hueplusplus.Bridge.Calls
import Hueplusplus.Bridge.Credentials
import Hueplusplus.Bridge.Finder
import Hueplusplus.UPnP
import Hueplusplus.HttpHandler.Multicast
import Hueplusplus.HttpHandler.Framing
import Hueplusplus.HttpHandler.Send
import Hueplusplus.HttpHandler.Client
import Hueplusplus.Bridge.Discovery
import Hueplusplus.HttpHandler.Datagrams
import Hueplusplus.Bridge.Network
import Hueplusplus.HttpHandler.BackEnds
import Hueplusplus.ResourceList
import Hueplusplus.Bridge.Lists
import Hueplusplus.Bridge.Operations
import Hueplusplus.Bridge.Address
import Hueplusplus.EntertainmentMode.Streaming
import Hueplusplus.EntertainmentMode.Update
import Hueplusplus.EntertainmentMode.Frames
import Hueplusplus.Resources.List
import Hueplusplus.Resources.ListRuns
import Hueplusplus.Resources.OwnChanges
import Hueplusplus.Resources.Created
import Hueplusplus.Resources.Ids
import Hueplusplus.Resources.Sensors
import Hueplusplus.Bridge.Groups
import Hueplusplus.Bridge.Twins
import Hueplusplus.Bridge.Connect
import Hueplusplus.Light.ColorRGB
import Hueplusplus.Light.Commands
import Hueplusplus.Light.InSync
import Hueplusplus.Resources.Reports
import Hueplusplus.Resources.SensorParts
