import CallFeed.Access.List
import CallFeed.Access.Mapping
import CallFeed.Access.Pattern
import CallFeed.Access.Token
import CallFeed.Address
import CallFeed.Config
import CallFeed.Event
import CallFeed.Fault
import CallFeed.Http.Header
import CallFeed.Http.Status
import CallFeed.Http.Target
import CallFeed.Hub.Alone
import CallFeed.Hub.Basic
import CallFeed.Hub.Clients
import CallFeed.Hub.Dispatch
import CallFeed.Journal.Line
import CallFeed.Journal.Metric
import CallFeed.Notice
import CallFeed.Proofs.Hub.History
import CallFeed.Proofs.Hub.Run
import CallFeed.Rules
import CallFeed.Service
import CallFeed.Session.Basic
import CallFeed.Session.Call
import CallFeed.Session.Command
import CallFeed.Session.Observe
import CallFeed.Session.Perform
import CallFeed.Session.Reading
import CallFeed.Settings
import CallFeed.Table
import CallFeed.Text.Blank
import CallFeed.Text.Numeral
import CallFeed.Text.Percent
import CallFeed.Text.Quoted
import CallFeed.Text.Unprintable
import CallFeed.Window
import CallFeed.Proofs.Hub.Emission
import CallFeed.Proofs.Hub.Roster
import CallFeed.Proofs.Hub.Holding
import CallFeed.Proofs.Hub.Delivery
import CallFeed.Proofs.Hub.Situation
import CallFeed.Proofs.Hub.Timeline
import CallFeed.Proofs.Hub.Stalling
import CallFeed.Proofs.Session.Steps
import CallFeed.Proofs.Session.Waiting
import CallFeed.Proofs.Session.Settling
import CallFeed.Proofs.Session.Driven
import CallFeed.Proofs.Session.Progress
import CallFeed.Proofs.Session.Admission
import CallFeed.Proofs.Session.Settled
import CallFeed.Proofs.Window.Counts
import CallFeed.Proofs.Window.Partition
import CallFeed.Proofs.Window.Closing
import CallFeed.Proofs.Window.Ticks
import CallFeed.Proofs.Session.Watching
import CallFeed.Proofs.Hub.Register
import CallFeed.Proofs.Hub.Ending
import CallFeed.Proofs.Session.Shutdown
import CallFeed.Proofs.Hub.Patience
import CallFeed.Proofs.Session.Prompt
import CallFeed.Proofs.Session.InTime
import CallFeed.Proofs.Hub.Beside
import CallFeed.Proofs.Session.Guest
import CallFeed.Proofs.Session.Pace
import CallFeed.Proofs.Session.Company
import CallFeed.Proofs.Access.Grants
import CallFeed.Proofs.Session.Subscribing
import CallFeed.Proofs.Session.Capacity
import CallFeed.Proofs.Session.Relisted
import CallFeed.Proofs.Session.Unseen
import CallFeed.Proofs.Session.Working
import CallFeed.Proofs.Session.Following
import CallFeed.Proofs.Session.Snapshots
import CallFeed.Proofs.Access.Grammar
import CallFeed.Proofs.Access.Written
import CallFeed.Proofs.Hub.Renaming
import CallFeed.Proofs.Session.Twin
import CallFeed.Proofs.Session.Layer
import CallFeed.Proofs.Text.Cutting
import CallFeed.Proofs.Config.Exemptions
import CallFeed.Proofs.Session.Message
import CallFeed.Proofs.Window.Totals
