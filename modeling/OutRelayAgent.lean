import OutRelayAgent.Lib.Machine
import OutRelayAgent.Lib.Pipe
import OutRelayAgent.Lib.Rendezvous
import OutRelayAgent.Lib.Threads
import OutRelayAgent.Lib.Mailbox
import OutRelayAgent.Lib.Bytes
import OutRelayAgent.Lib.Framing
import OutRelayAgent.Lib.Handout
import OutRelayAgent.Lib.Table
import OutRelayAgent.Lib.Custody
import OutRelayAgent.Lib.InsertionSort
import OutRelayAgent.Lib.Script
import OutRelayAgent.Lib.BigEndian
import OutRelayAgent.Lib.Ledger
import OutRelayAgent.Stream.Callers
import OutRelayAgent.Resume.State
import OutRelayAgent.Resume.Relay
import OutRelayAgent.Resume.Invariant
import OutRelayAgent.Resume.ExactlyOnce
import OutRelayAgent.Resume.Order
import OutRelayAgent.Resume.Rollback
import OutRelayAgent.Stream.Io
import OutRelayAgent.Stream.Account
import OutRelayAgent.Stream.HalfClose
import OutRelayAgent.Stream.Wrapper
import OutRelayAgent.Stream.Park
import OutRelayAgent.Stream.Closing
import OutRelayAgent.Stream.Bridge
import OutRelayAgent.Migrate.Model
import OutRelayAgent.Migrate.Forward
import OutRelayAgent.Migrate.Backward
import OutRelayAgent.Migrate.Agreement
import OutRelayAgent.Session.Model
import OutRelayAgent.Session.Close
import OutRelayAgent.Session.Reconnect
import OutRelayAgent.Session.Dial
import OutRelayAgent.Session.Incoming
import OutRelayAgent.Session.Attempts
import OutRelayAgent.Session.Register
import OutRelayAgent.Session.Happy
import OutRelayAgent.Session.Failover
import OutRelayAgent.Session.Supervise
import OutRelayAgent.Control.Waiters
import OutRelayAgent.Control.Promote
import OutRelayAgent.Control.Reader
import OutRelayAgent.Control.Write
import OutRelayAgent.Control.Reflexive
import OutRelayAgent.Control.Checkpoints
import OutRelayAgent.Intercept.Vip
import OutRelayAgent.Intercept.Dns
import OutRelayAgent.Intercept.Accept
import OutRelayAgent.Intercept.Conserve
import OutRelayAgent.Intercept.Silent
import OutRelayAgent.Intercept.Serve
import OutRelayAgent.Forward.Mode
import OutRelayAgent.Forward.Plane
import OutRelayAgent.Forward.Bringup
import OutRelayAgent.Direct.Takeover
import OutRelayAgent.Direct.Release
import OutRelayAgent.P2p.Promoter
import OutRelayAgent.P2p.Candidates
import OutRelayAgent.P2p.Gather
import OutRelayAgent.P2p.Budget
import OutRelayAgent.P2p.Punch
import OutRelayAgent.Agent.Start
import OutRelayAgent.Agent.Fleet
import OutRelayAgent.P2p.Demoter
import OutRelayAgent.Stream.Models
