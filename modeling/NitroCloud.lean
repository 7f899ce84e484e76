import NitroCloud.Foundations.Machine
import NitroCloud.Foundations.Bytes
import NitroCloud.Foundations.BigEndian
import NitroCloud.Foundations.Framing
import NitroCloud.Foundations.Stdio
import NitroCloud.Foundations.IStream
import NitroCloud.Foundations.IntToken
import NitroCloud.Foundations.Paired
import NitroCloud.Foundations.Weights
import NitroCloud.Foundations.Channel
import NitroCloud.Mem.Serializer
import NitroCloud.Mem.Table
import NitroCloud.Mem.Layout
import NitroCloud.Mem.LineEnd
import NitroCloud.Mem.Numbers
import NitroCloud.Mem.Damaged
import NitroCloud.Mem.Reuse
import NitroCloud.Command.Command
import NitroCloud.Command.Codec
import NitroCloud.Command.Reject
import NitroCloud.Command.Rows
import NitroCloud.CsBoost.Server
import NitroCloud.CsBoost.Accounting
import NitroCloud.CsBoost.MainTest
import NitroCloud.CsBoost.Dump
import NitroCloud.CsBoost.Failure
import NitroCloud.CsBoost.Client
import NitroCloud.CloudPrototypes.Inproc
import NitroCloud.CloudPrototypes.OneProcess
import NitroCloud.CloudPrototypes.Refinement
import NitroCloud.CloudPrototypes.Sync
import NitroCloud.CloudPrototypes.ReadErrors
import NitroCloud.CloudPrototypes.Sample
import NitroCloud.CloudPrototypes.Statistic
import NitroCloud.CloudPrototypes.Session
import NitroCloud.CsLibuv.ServerTask
import NitroCloud.CsLibuv.Responses
import NitroCloud.CsLibuv.Callbacks
import NitroCloud.CsLibuv.ClientTask
import NitroCloud.CsLibuv.Link
import NitroCloud.CsLibuv.MainTest
import NitroCloud.Nanomsg.PairSocket
import NitroCloud.Nanomsg.Accounting
import NitroCloud.Nanomsg.Progress
import NitroCloud.Nanomsg.Deadlock
import NitroCloud.Nanomsg.Responses
import NitroCloud.Nanomsg.Surveyor
import NitroCloud.Nanomsg.Survey
import NitroCloud.Nanomsg.SurveySocket
import NitroCloud.Nanomsg.Usock
import NitroCloud.Nanomsg.Stcp
import NitroCloud.Nanomsg.Session
import NitroCloud.Nanomsg.Messages
import NitroCloud.Nanomsg.Connection
import NitroCloud.Nanomsg.Delivery
import NitroCloud.Nanomsg.LostError
import NitroCloud.Task.Run
import NitroCloud.Task.Protocol
import NitroCloud.Task.Finish
import NitroCloud.Task.Registry
import NitroCloud.Task.Actions
import NitroCloud.Task.Logs
import NitroCloud.Pipe.ServerMain
import NitroCloud.Pipe.Stop
import NitroCloud.Pipe.Conversation
import NitroCloud.Pipe.TaskCounter
import NitroCloud.Libuv.ThreadPool
import NitroCloud.Libuv.Requests
import NitroCloud.Libuv.Progress
import NitroCloud.LibuvCloud.ServerTask
import NitroCloud.LibuvCloud.Close
