import K64Gateway.Lib.LinkedHeap
import K64Gateway.Lib.CString
import K64Gateway.Lib.LittleEndian
import K64Gateway.Lib.FileImage
import K64Gateway.Lib.Framing
import K64Gateway.Lib.TaggedText
import K64Gateway.Lib.Resume
import K64Gateway.Lib.Stores
import K64Gateway.Lib.Groups
import K64Gateway.Lib.Updates
import K64Gateway.Lib.ReadModifyWrite
import K64Gateway.External.Aes
import K64Gateway.External.Cjson
import K64Gateway.External.Mxml
import K64Gateway.External.MbCrc
import K64Gateway.VarManage.Types
import K64Gateway.VarManage.ExtDataLink
import K64Gateway.VarManage.Json
import K64Gateway.VarManage.Config
import K64Gateway.VarManage.CfgTable
import K64Gateway.VarManage.Registers
import K64Gateway.VarManage.Polling
import K64Gateway.VarManage.Routing
import K64Gateway.VarManage.ClearOnError
import K64Gateway.VarManage.MasterResponse
import K64Gateway.VarManage.StoragePass
import K64Gateway.VarManage.StorageEvery
import K64Gateway.VarManage.SyncPlan
import K64Gateway.VarManage.ExpWriteBack
import K64Gateway.VarManage.Dlt645Reading
import K64Gateway.VarManage.SlaveWrite
import K64Gateway.VarManage.SlaveValue
import K64Gateway.VarManage.PollInterval
import K64Gateway.Gprs.Receiver
import K64Gateway.Gprs.Payload
import K64Gateway.Gprs.Delivery
import K64Gateway.Sdccp.Hjt212
import K64Gateway.Sdccp.Hjt212Sound
import K64Gateway.Sdccp.Hjt212Pack
import K64Gateway.Sdccp.Hjt212Residue
import K64Gateway.Sdccp.Hjt212Report
import K64Gateway.Sdccp.Hjt212Round
import K64Gateway.Sdccp.UploadAvg
import K64Gateway.Sdccp.CcBjdc
import K64Gateway.Sdccp.CcBjdcSound
import K64Gateway.Sdccp.CcBjdcWork
import K64Gateway.Sdccp.CcBjdcReport
import K64Gateway.Sdccp.Dlt645
import K64Gateway.Board.BoardCfg
import K64Gateway.Board.BoardCfgRuns
import K64Gateway.Board.CfgLines
import K64Gateway.Board.CfgRecoverPower
import K64Gateway.Board.UpdateCheck
import K64Gateway.Board.UpdateDo
import K64Gateway.Expression.Grammar
import K64Gateway.Backup.CfgJson
import K64Gateway.Backup.AnalogCfg
import K64Gateway.Backup.UartCfg
import K64Gateway.Backup.TcpipCfg
import K64Gateway.Backup.ZigbeeCfg
import K64Gateway.Backup.GprsCfg
import K64Gateway.Backup.Restore
import K64Gateway.Board.XferHelper
import K64Gateway.Zigbee.DstCache
import K64Gateway.Modbus.HoldingDo
import K64Gateway.Board.DoTask
import K64Gateway.Board.DiDoPass
import K64Gateway.ThreadDog.Check
import K64Gateway.Zigbee.Liveness
import K64Gateway.Zigbee.StdRsp
import K64Gateway.VarManage.Separation
import K64Gateway.VarManage.SortOrder
import K64Gateway.Sdccp.Hjt212Crc
import K64Gateway.Sdccp.Hjt212Fit
import K64Gateway.Sdccp.Dlt645Accept
import K64Gateway.Sdccp.Dlt645Packet
import K64Gateway.Sdccp.Dlt645Value
import K64Gateway.Expression.VarName
import K64Gateway.Expression.Rendering
import K64Gateway.Expression.RoundTrip
import K64Gateway.Zigbee.Route
import K64Gateway.Board.XferAddrs
import K64Gateway.Board.StorageLimit
import K64Gateway.VarManage.PollCover
import K64Gateway.Lib.Progress
import K64Gateway.Board.UpdateEnds
import K64Gateway.Lib.EventRun
import K64Gateway.Board.CfgRecoverBusy
import K64Gateway.Board.CfgRecoverSlots
import K64Gateway.Lib.RegisterBytes
import K64Gateway.Modbus.HoldingRegs
import K64Gateway.Lib.RingQueue
import K64Gateway.Board.AdcFilter
import K64Gateway.Board.AdcConvert
import K64Gateway.VarManage.TrimUnion
import K64Gateway.Lib.NodeChain
import K64Gateway.VarManage.PlanCursor
import K64Gateway.Board.CfgLinesRead
import K64Gateway.Lib.ShiftRegister
import K64Gateway.Sdccp.Hjt212Change
import K64Gateway.Sdccp.CcBjdcCrc
import K64Gateway.Lib.Window
import K64Gateway.Modbus.RtuFrame
import K64Gateway.Modbus.RtuPort
import K64Gateway.Modbus.SlavePoll
import K64Gateway.Modbus.SlaveServer
import K64Gateway.Modbus.SlaveFuncs
import K64Gateway.Modbus.SlaveAnswers
import K64Gateway.Modbus.SlaveDevice
import K64Gateway.Lib.Tiling
import K64Gateway.Lua.Heap
import K64Gateway.Lua.HeapBlocks
import K64Gateway.Lua.HeapCalls
import K64Gateway.Lua.HeapRuns
import K64Gateway.Lib.Calendar
import K64Gateway.Board.Time
import K64Gateway.Board.Clock
